import HyperMoE.Scheduler.Cancellation

/-!
# Evictions

An eviction to any tier but NVMe ends well, unless it is cancelled before its copy, its copy fails, or
somebody takes the expert away meanwhile; one to NVMe never does, because the transfer manager refuses
that destination.

* `Disturbs`      the steps that can spoil an eviction;
* `Evicts`        the eviction is on its way to a good end, or has had it;
* `Ends`          what the step that ends it leaves;
* `Meets`         what becomes of another request for the expert;
* `run_evicts`    all this, for every run without a step that disturbs.
-/

namespace HyperMoE.Scheduler

open Lib Lib.Fallible

variable {cfg : SchedulerConfig} {s s' : Scheduler} {c : Core}

/-! ## what can go wrong -/

def copied : TransferOutcome → Bool
  | .ok r => r.status = .Completed
  | .error _ => false

/-- the eviction has put the expert at its destination, and is not over -/
def hasArrived (t : TaskId) (s : Scheduler) : Prop :=
  s.pendingByExpert (s.tasks t).key = some t ∧ ∃ e ∈ s.states (s.tasks t).key, usable e.state

instance (t : TaskId) (s : Scheduler) : Decidable (hasArrived t s) := by
  unfold hasArrived
  infer_instance

/-- the round of the trimming loop gives up what is retained for the candidate -/
def givesUp (cfg : SchedulerConfig) (s : Scheduler) (cachedBytes : Nat) (k : ExpertKey) : Prop :=
  ∃ found ∈ s.residentTransfers k, fits cfg cachedBytes found = false

instance (s : Scheduler) (cachedBytes : Nat) (k : ExpertKey) :
    Decidable (givesUp cfg s cachedBytes k) := by
  unfold givesUp
  infer_instance

/-- the next round of `expirePrefetchesBefore` gives up the expert -/
def expiresNext (k : ExpertKey) : Option Holder → Prop
  | some (.expiring layerId (k' :: _) _) => k'.1 < layerId ∧ k' = k
  | _ => False

instance (k : ExpertKey) (lock : Option Holder) : Decidable (expiresNext k lock) := by
  unfold expiresNext
  split <;> infer_instance

/-- somebody has acquired the expert -/
def isAcquired (t : TaskId) (s : Scheduler) : Prop :=
  ∃ e ∈ s.states (s.tasks t).key, e.state = .InUse

instance (t : TaskId) (s : Scheduler) : Decidable (isAcquired t s) := by
  unfold isAcquired
  infer_instance

/-- the step of a worker at `pc`: it finds the flag of `t` set before the copy, or the copy fails, or a
trimming loop gives up the expert that `t` has moved, or the loop of `t` itself meets another expert
that cannot be given up, or the end of `t` comes while the expert is acquired -/
def disturbsAt (cfg : SchedulerConfig) (t : TaskId) (s : Scheduler) (outcome : TransferOutcome) :
    WorkerPc → Prop
  | .popped t' => t' = t ∧ s.cancelled t = true
  | .loading t' => t' = t ∧ copied outcome = false
  | .trimming t' _ cachedBytes (k :: _) => givesUp cfg s cachedBytes k ∧
      (k = (s.tasks t).key ∧ hasArrived t s ∨
        t' = t ∧ k ≠ (s.tasks t).key ∧ ¬ ∃ e ∈ s.states k, reconcilable e.state)
  | .recorded t' _ => t' = t ∧ isAcquired t s
  | .completing t' _ => t' = t ∧ isAcquired t s
  | _ => False

instance (t : TaskId) (s : Scheduler) (outcome : TransferOutcome) (pc : WorkerPc) :
    Decidable (disturbsAt cfg t s outcome pc) := by
  unfold disturbsAt
  split <;> infer_instance

def Disturbs (cfg : SchedulerConfig) (t : TaskId) (s : Scheduler) : Action → Prop
  | .expireNext => expiresNext (s.tasks t).key s.lock ∧ hasArrived t s
  | .work w outcome => disturbsAt cfg t s outcome (s.workers w)
  | _ => False

theorem not_disturbsAt {t : TaskId} {w : WorkerId} {outcome : TransferOutcome} {pc : WorkerPc}
    (hno : ¬ Disturbs cfg t s (.work w outcome)) (hw : s.workers w = pc) :
    ¬ disturbsAt cfg t s outcome pc := hw ▸ hno

instance (t : TaskId) (s : Scheduler) (a : Action) : Decidable (Disturbs cfg t s a) := by
  apply Action.casesOn (motive := fun a => Decidable (Disturbs cfg t s a)) a <;> intros <;>
    unfold Disturbs <;> infer_instance

/-! ## a good end -/

/-- a success, with the expert at the destination -/
def Arrives (destination : MemoryTier) (result : ScheduleResult) : Prop :=
  result.success = true ∧ result.state.state = .Ready ∧ result.state.currentLocation = destination

def proceeding (destination : MemoryTier) : WorkerPc → Prop
  | .failing _ _ => False
  | .failed _ _ => False
  | .completing _ result => Arrives destination result
  | .notifying _ result _ => Arrives destination result
  | _ => True

/-- the expert is at its destination -/
def settledPast : WorkerPc → Bool
  | .ready _ _ => true
  | .trimming _ _ _ _ => true
  | .recorded _ _ => true
  | .completing _ _ => true
  | _ => false

/-- the transfer is retained -/
def retainedPast : WorkerPc → Bool
  | .trimming _ _ _ _ => true
  | .recorded _ _ => true
  | .completing _ _ => true
  | _ => false

def Settles (destination : MemoryTier) (k : ExpertKey) (s : Scheduler) : Prop :=
  ∃ e, s.states k = some e ∧ e.state = .Ready ∧ e.currentLocation = destination

/-- the expert is at the destination, and may be acquired there -/
def Reaches (destination : MemoryTier) (k : ExpertKey) (states : States) : Prop :=
  ∃ e, states k = some e ∧ usable e.state ∧ e.currentLocation = destination

theorem Settles.reaches {destination : MemoryTier} {k : ExpertKey}
    (h : Settles destination k s) : Reaches destination k s.states := by
  obtain ⟨e, he, hready, hat⟩ := h
  exact ⟨e, he, .inl hready, hat⟩

/-- where nobody has acquired it, it is ready -/
theorem Reaches.settles {destination : MemoryTier} {t : TaskId}
    (h : Reaches destination (s.tasks t).key s.states) (hno : ¬ isAcquired t s) :
    Settles destination (s.tasks t).key s := by
  obtain ⟨e, he, hready | huse, hat⟩ := h
  · exact ⟨e, he, hready, hat⟩
  · exact absurd ⟨e, he, huse⟩ hno

structure Evicts (destination : MemoryTier) (t : TaskId) (s : Scheduler) : Prop where
  unmarked : .markedFailed t ∉ s.core.history
  said : Said (Arrives destination) s.core (.task t)
  proceeds : ∀ w, (stage (s.workers w)).task = some t → proceeding destination (s.workers w)
  reaches : ∀ w, (stage (s.workers w)).task = some t → settledPast (s.workers w) = true →
    Reaches destination (s.tasks t).key s.states
  retains : ∀ w, (stage (s.workers w)).task = some t → retainedPast (s.workers w) = true →
    (s.residentTransfers (s.tasks t).key).isSome = true

theorem new_evicts (destination : MemoryTier) (t : TaskId) : Evicts destination t {} where
  unmarked h := nomatch h
  said := ⟨fun _ h => (nomatch h), fun _ _ _ h => nomatch h⟩
  proceeds _ h := nomatch h
  reaches _ h := nomatch h
  retains _ h := nomatch h

/-! ## one stage of the worker -/

theorem holds_of_settledPast {pc : WorkerPc} {t : TaskId} (h : settledPast pc = true)
    (ht : (stage pc).task = some t) : stage pc = .holds t := by
  cases pc with
  | ready t' r => exact congrArg _ (Option.some.inj ht)
  | trimming t' r n candidates => exact congrArg _ (Option.some.inj ht)
  | recorded t' r => exact congrArg _ (Option.some.inj ht)
  | completing t' result => exact congrArg _ (Option.some.inj ht)
  | _ => cases h

theorem settledPast_of_retainedPast {pc : WorkerPc} (h : retainedPast pc = true) :
    settledPast pc = true := by
  cases pc with
  | trimming t r n candidates => rfl
  | recorded t r => rfl
  | completing t result => rfl
  | _ => cases h

/-- `markReady` puts the expert at the destination -/
theorem finish_settles (hs : Sound cfg s) {w : WorkerId} {t : TaskId} {r : TransferResult}
    (hw : s.workers w = .transferred t r) :
    Settles (s.tasks t).request.destination (s.tasks t).key
      (s.thread (guarded id w t (finishTransfer w t r))) := by
  obtain ⟨-, e, he, ha⟩ := held_task hs.dispatched hs.tracked (w := w) (t := t) (by rw [hw]; rfl)
  rw [hw] at ha
  replace ha : e.state = moving (s.tasks t).request.eviction := ha
  refine thread_of (P := Settles _ _) ?_
  show wp (tryCatch _ _) _ s
  rw [wp_tryCatch]
  show wp (read >>= _) _ s
  rw [wp_bind, wp_read]
  show wp (_ >>= _) _ s
  rw [wp_bind]
  refine wp_onRecord_of_allowed he ?_ ?_
  · rw [ha]
    cases (s.tasks t).request.eviction <;> decide
  · exact ⟨_, States.set_self .., rfl, rfl⟩

theorem record_retains {w : WorkerId} {t : TaskId} {r : TransferResult}
    (hd : (s.tasks t).request.destination ≠ .Nvme) :
    (s.record w t r).residentTransfers (s.tasks t).key = some r := by
  have hretain : (s.retain (s.tasks t).key r (s.tasks t).request.destination).residentTransfers
      (s.tasks t).key = some r := by
    show Function.update s.residentTransfers _ (if _ then _ else _) _ = _
    rw [Function.update_self, if_neg hd]
  unfold record
  show (if _ then _ else _ : Scheduler).residentTransfers _ = _
  split <;> exact hretain

/-- the result carries the record as it is then -/
theorem succeed_result {w : WorkerId} {t : TaskId} {r : TransferResult} {result : ScheduleResult}
    (hs : Sound cfg s) (hw : s.workers w = .recorded t r)
    (h : (s.thread (guarded id w t (succeed w t r))).workers w = .completing t result) :
    ∃ e, s.states (s.tasks t).key = some e ∧
      result = { success := true, transfer := r, state := e } := by
  obtain ⟨-, e, he, -⟩ := held_task hs.dispatched hs.tracked (w := w) (t := t) (by rw [hw]; rfl)
  have hafter : (s.thread (guarded id w t (succeed w t r))).workers w =
      .completing t { success := true, transfer := r, state := e } := by
    refine thread_of (P := fun s' => s'.workers w = _) ?_
    show wp (tryCatch _ _) _ s
    rw [wp_tryCatch]
    show wp (read >>= _) _ s
    rw [wp_bind, wp_read]
    show wp (_ >>= _) _ s
    rw [wp_bind, wp_snapshot, he]
    exact Function.update_self ..
  exact ⟨e, he, (WorkerPc.completing.inj (h.symm.trans hafter)).2⟩

theorem await_copied {w : WorkerId} {t : TaskId} {outcome : TransferOutcome} {result : ScheduleResult}
    (hc : copied outcome = true) (h : (s.awaitTransfer w t outcome).workers w = .failing t result) :
    False := by
  cases outcome with
  | error e => exact nomatch hc
  | ok r =>
    have hr : r.status = .Completed := of_decide_eq_true hc
    unfold awaitTransfer at h
    replace h : (if r.status = .Cancelled then _ else _ : Scheduler).workers w = .failing t result := h
    rw [if_neg (by rw [hr]; exact nofun)] at h
    replace h : Function.update s.workers w (.transferred t r) w = .failing t result := h
    rw [Function.update_self] at h
    exact nomatch h

/-! ## what the others leave alone -/

/-- the record of an expert whose task is pending is not reconciled from outside -/
theorem reconcile_pending {k : ExpertKey} {location : MemoryTier} {t : TaskId}
    (hp : s.pendingByExpert k = some t) (h : step cfg (.reconcileResidency k location) s = some s') :
    s'.core = s.core := by
  obtain ⟨-, -, rfl⟩ := step_eq h
  refine answer_of (P := fun s' => s'.core = s.core) ?_
  show wp (read >>= _) _ s
  rw [wp_bind, wp_read]
  show wp ((if _ then _ else _) >>= _) _ s
  rw [if_neg (by rw [hp]; exact fun hn => nomatch hn.1)]
  rfl

theorem acknowledge_pending {k : ExpertKey} {location : MemoryTier} {t : TaskId}
    (hp : s.pendingByExpert k = some t)
    (h : step cfg (.acknowledgeResidency k location) s = some s') : s'.core = s.core := by
  obtain ⟨-, -, rfl⟩ := step_eq h
  refine answer_of (P := fun s' => s'.core = s.core) ?_
  show wp (read >>= _) _ s
  rw [wp_bind, wp_read]
  show wp (_ >>= _) _ s
  rw [wp_bind, wp_throwIf, if_pos (by rw [hp]; rfl)]
  rfl

/-- between `markReady` and the end, a step that does not disturb leaves the expert where it is -/
theorem stays {a : Action} {w : WorkerId} {t : TaskId} (hs : Sound cfg s)
    (h : step cfg a s = some s') (hno : ¬ Disturbs cfg t s a)
    (hd : (s.tasks t).request.destination ≠ .Nvme) (ht : (stage (s.workers w)).task = some t)
    (hpast : settledPast (s.workers w) = true)
    (hreaches : Reaches (s.tasks t).request.destination (s.tasks t).key s.states) :
    Reaches (s.tasks t).request.destination (s.tasks t).key s'.states ∧
      ((s.residentTransfers (s.tasks t).key).isSome = true →
        (s'.residentTransfers (s.tasks t).key).isSome = true) := by
  obtain ⟨e, he, husable, hat⟩ := id hreaches
  have hw := holds_of_settledPast hpast ht
  obtain ⟨hp, -⟩ := held_task hs.dispatched hs.tracked hw
  have harrived : hasArrived t s := ⟨hp, e, he, husable⟩
  -- no other worker has a task of this expert, and this one is past its transfer
  have hother : ∀ {w' : WorkerId} {t' : TaskId}, stage (s.workers w') = .holds t' →
      settledPast (s.workers w') = false → (s.tasks t').key ≠ (s.tasks t).key := by
    intro w' t' hw' hpast' hk
    obtain ⟨rfl, -⟩ := same_holder hs.dispatched hs.tracked hw hw' hk.symm
    exact nomatch hpast.symm.trans hpast'
  have hset : ∀ {k : ExpertKey} {e' : ExpertState}, k ≠ (s.tasks t).key →
      Reaches (s.tasks t).request.destination (s.tasks t).key (s.states.set k e') :=
    fun hk => ⟨e, (States.set_of_ne hk.symm ..).trans he, husable, hat⟩
  have hupdate : ∀ {k : ExpertKey} {r : Option TransferResult}, k ≠ (s.tasks t).key →
      (s.residentTransfers (s.tasks t).key).isSome = true →
      (Function.update s.residentTransfers k r (s.tasks t).key).isSome = true := by
    intro k r hk hsome
    rw [Function.update_of_ne hk.symm]
    exact hsome
  have hc := (step_change hs.dispatched hs.tracked h).1
  generalize hcore : s'.core = c at hc
  have hstates : s'.states = c.states := congrArg Core.states hcore
  have hresident : s'.residentTransfers = c.residentTransfers := congrArg Core.residentTransfers hcore
  have hguarded : s'.core = s.core →
      Reaches (s.tasks t).request.destination (s.tasks t).key s'.states ∧
      ((s.residentTransfers (s.tasks t).key).isSome = true →
        (s'.residentTransfers (s.tasks t).key).isSome = true) := by
    intro hsame
    have hst : s'.states = s.states := congrArg Core.states hsame
    have hres : s'.residentTransfers = s.residentTransfers := congrArg Core.residentTransfers hsame
    rw [hst, hres]
    exact ⟨hreaches, id⟩
  rw [hstates, hresident]
  rw [hstates, hresident] at hguarded
  cases hc
  case register k location hn =>
    refine ⟨hset ?_, id⟩
    rintro rfl
    exact nomatch hn.symm.trans he
  case acquire k e' he' hr' =>
    refine ⟨?_, id⟩
    by_cases hk : k = (s.tasks t).key
    · subst hk
      obtain rfl := Option.some.inj (he.symm.trans he')
      exact ⟨_, States.set_self .., .inr rfl, hat⟩
    · exact hset hk
  case release k e' he' hr' =>
    refine ⟨?_, id⟩
    by_cases hk : k = (s.tasks t).key
    · subst hk
      obtain rfl := Option.some.inj (he.symm.trans he')
      exact ⟨_, States.set_self .., .inl rfl, hat⟩
    · exact hset hk
  case reconcile k location e' he' hr' =>
    by_cases hk : k = (s.tasks t).key
    · exact hguarded (reconcile_pending (hk ▸ hp) h)
    · exact ⟨hset hk, id⟩
  case acknowledge k location e' he' hr' =>
    by_cases hk : k = (s.tasks t).key
    · exact hguarded (acknowledge_pending (hk ▸ hp) h)
    · exact ⟨hset hk, hupdate hk⟩
  case acknowledgeRefused k location =>
    by_cases hk : k = (s.tasks t).key
    · exact hguarded (acknowledge_pending (hk ▸ hp) h)
    · exact ⟨hreaches, hupdate hk⟩
  case expire layerId k rest wasted e' hl hlt he' hr' =>
    have hk : k ≠ (s.tasks t).key := by
      rintro rfl
      exact hno ⟨by rw [hl]; exact ⟨hlt, rfl⟩, harrived⟩
    exact ⟨hset hk, hupdate hk⟩
  case expireRefused layerId k rest wasted hl hlt hr' =>
    have hk : k ≠ (s.tasks t).key := by
      rintro rfl
      exact hno ⟨by rw [hl]; exact ⟨hlt, rfl⟩, harrived⟩
    exact ⟨hreaches, hupdate hk⟩
  case enqueue request callback e' he' hn hi hc' ha =>
    refine ⟨hset ?_, id⟩
    intro hk
    rw [hk, hp] at hn
    exact nomatch hn
  case launch w' outcome t' e' hw' he' =>
    exact ⟨hset (hother (by rw [hw']; rfl) (by rw [hw']; rfl)), id⟩
  case finish w' outcome t' r e' hw' he' =>
    exact ⟨hset (hother (by rw [hw']; rfl) (by rw [hw']; rfl)), id⟩
  case marksFailed w' outcome t' result e' hw' he' =>
    exact ⟨hset (hother (by rw [hw']; rfl) (by rw [hw']; rfl)), id⟩
  case record w' outcome t' r pc lock hw' hl hpc =>
    refine ⟨hreaches, fun hsome => ?_⟩
    by_cases hk : (s.tasks t').key = (s.tasks t).key
    · obtain ⟨-, rfl⟩ := same_holder hs.dispatched hs.tracked hw
        (show stage (s.workers w') = .holds t' by rw [hw']; rfl) hk.symm
      show (Function.update s.residentTransfers _ (if _ then _ else _) _).isSome = true
      rw [Function.update_self, if_neg hd]
      rfl
    · exact hupdate hk hsome
  case dropsOwn w' outcome t' r found n rest hw' hf hx =>
    have hk : (s.tasks t').key ≠ (s.tasks t).key :=
      fun hk => not_disturbsAt hno hw' ⟨⟨found, hf, hx⟩, .inl ⟨hk, harrived⟩⟩
    exact ⟨hreaches, hupdate hk⟩
  case drops w' outcome t' r found n k rest e' hw' hf hx hc' he' hr' =>
    have hk : k ≠ (s.tasks t).key :=
      fun hk => not_disturbsAt hno hw' ⟨⟨found, hf, hx⟩, .inl ⟨hk, harrived⟩⟩
    exact ⟨hset hk, hupdate hk⟩
  case dropRefused w' outcome t' r found n k rest x hw' hf hx hc' hr' =>
    have hk : k ≠ (s.tasks t).key :=
      fun hk => not_disturbsAt hno hw' ⟨⟨found, hf, hx⟩, .inl ⟨hk, harrived⟩⟩
    exact ⟨hreaches, hupdate hk⟩
  all_goals exact ⟨hreaches, id⟩

/-! ## every step -/

section

variable {a : Action} {t : TaskId} {destination : MemoryTier}

/-- a worker that left a place was the one at work -/
theorem work_of_left (hs : Sound cfg s) (h : step cfg a s = some s') {w : WorkerId}
    {pc pc' : WorkerPc} (hpc : s.workers w = pc) (hpc' : s'.workers w = pc') (hne : pc' ≠ pc) :
    ∃ outcome, a = .work w outcome ∧ s' = s.thread (work cfg w outcome pc) := by
  obtain rfl := hpc
  obtain rfl := hpc'
  exact work_of_moved hs h hne

/-- a worker that goes on with the task stays on its way -/
theorem proceeds_next (hs : Sound cfg s) (h : step cfg a s = some s') (hno : ¬ Disturbs cfg t s a)
    (i : Evicts destination t s) {w : WorkerId} (hn : Next cfg s (s.workers w) (s'.workers w))
    (ht : (stage (s'.workers w)).task = some t) : proceeding destination (s'.workers w) := by
  have hbefore := i.proceeds w
  have hreaches := i.reaches w
  generalize hpc : s.workers w = pc at hn hbefore hreaches
  generalize hpc' : s'.workers w = pc' at hn ht
  cases hn
  case claim => exact trivial
  case exits => exact nomatch ht
  case cancelled t' result hr =>
    obtain rfl := Option.some.inj ht
    obtain ⟨outcome, rfl, hthread⟩ := work_of_left hs h hpc hpc' nofun
    rw [hthread] at hpc'
    have hflag : s.cancelled t' = false :=
      Bool.eq_false_iff.mpr fun hf => not_disturbsAt hno hpc ⟨rfl, hf⟩
    exact (launch_uncancelled hpc hflag hpc').elim
  case launch => exact trivial
  case aborted t' result hr =>
    obtain rfl := Option.some.inj ht
    obtain ⟨outcome, rfl, hthread⟩ := work_of_left hs h hpc hpc' nofun
    rw [hthread] at hpc'
    have hcopied : copied outcome = true :=
      Bool.not_eq_false _ ▸ fun hc => not_disturbsAt hno hpc ⟨rfl, hc⟩
    exact (await_copied hcopied hpc').elim
  case transferred => exact trivial
  case finish => exact trivial
  case record => exact trivial
  case bound => exact trivial
  case round => exact trivial
  case refused t' r found n k rest x hf hx hk hr =>
    obtain rfl := Option.some.inj ht
    obtain ⟨outcome, rfl, -⟩ := work_of_left hs h hpc hpc' nofun
    refine (not_disturbsAt hno hpc ?_).elim
    exact ⟨⟨found, hf, hx⟩, .inr ⟨rfl, hk, fun ⟨e, he, hrec⟩ => hr e he hrec⟩⟩
  case trimmed => exact trivial
  case succeeds t' r e =>
    obtain rfl := Option.some.inj ht
    obtain ⟨outcome, rfl, hthread⟩ := work_of_left hs h hpc hpc' nofun
    rw [hthread] at hpc'
    obtain ⟨e', he', hresult⟩ := succeed_result hs hpc hpc'
    have hfree : ¬ isAcquired t' s := fun hacquired => not_disturbsAt hno hpc ⟨rfl, hacquired⟩
    obtain ⟨e₁, he₁, hready, hat⟩ := (hreaches rfl rfl).settles hfree
    obtain rfl := Option.some.inj (he'.symm.trans he₁)
    show Arrives destination _
    rw [hresult]
    exact ⟨rfl, hready, hat⟩
  case marksFailed => exact (hbefore ht).elim
  case notesFailure => exact (hbefore ht).elim
  case completes => exact hbefore ht
  case calls => exact hbefore ht
  case resolves => exact nomatch ht

/-- where a worker with the task was before it went past `markReady` -/
theorem past_next (hs : Sound cfg s) (h : step cfg a s = some s') (i : Evicts destination t s)
    {w : WorkerId} (hn : Next cfg s (s.workers w) (s'.workers w))
    (ht : (stage (s'.workers w)).task = some t) (hpast : settledPast (s'.workers w) = true) :
    (stage (s.workers w)).task = some t ∧ (settledPast (s.workers w) = true ∨
      ∃ r, s.workers w = .transferred t r ∧ s'.workers w = .ready t r ∧
        s' = s.thread (guarded id w t (finishTransfer w t r))) := by
  have hbefore := i.proceeds w
  generalize hpc : s.workers w = pc at hn hbefore
  generalize hpc' : s'.workers w = pc' at hn ht hpast
  cases hn
  case finish t' r =>
    obtain rfl := Option.some.inj ht
    obtain ⟨outcome, rfl, hthread⟩ := work_of_left hs h hpc hpc' nofun
    exact ⟨rfl, .inr ⟨r, rfl, rfl, hthread⟩⟩
  case record => exact ⟨ht, .inl rfl⟩
  case bound => exact ⟨ht, .inl rfl⟩
  case round => exact ⟨ht, .inl rfl⟩
  case trimmed => exact ⟨ht, .inl rfl⟩
  case succeeds => exact ⟨ht, .inl rfl⟩
  case notesFailure => exact (hbefore ht).elim
  all_goals exact nomatch hpast

/-- where it was before the transfer was retained -/
theorem retained_next (hs : Sound cfg s) (h : step cfg a s = some s') (i : Evicts destination t s)
    {w : WorkerId} (hn : Next cfg s (s.workers w) (s'.workers w))
    (ht : (stage (s'.workers w)).task = some t) (hpast : retainedPast (s'.workers w) = true) :
    (stage (s.workers w)).task = some t ∧ settledPast (s.workers w) = true ∧
      (retainedPast (s.workers w) = true ∨
        ∃ r, s.workers w = .ready t r ∧ s' = s.record w t r) := by
  have hbefore := i.proceeds w
  generalize hpc : s.workers w = pc at hn hbefore
  generalize hpc' : s'.workers w = pc' at hn ht hpast
  cases hn
  case record t' r =>
    obtain rfl := Option.some.inj ht
    obtain ⟨outcome, rfl, hthread⟩ := work_of_left hs h hpc hpc' nofun
    exact ⟨rfl, rfl, .inr ⟨r, rfl, hthread⟩⟩
  case bound t' r candidates =>
    obtain rfl := Option.some.inj ht
    obtain ⟨outcome, rfl, hthread⟩ := work_of_left hs h hpc hpc' nofun
    exact ⟨rfl, rfl, .inr ⟨r, rfl, hthread⟩⟩
  case round => exact ⟨ht, rfl, .inl rfl⟩
  case trimmed => exact ⟨ht, rfl, .inl rfl⟩
  case succeeds => exact ⟨ht, rfl, .inl rfl⟩
  case notesFailure => exact (hbefore ht).elim
  all_goals exact nomatch hpast

/-- a task that a worker has was there before the step -/
theorem known_before (hs : Sound cfg s) (h : step cfg a s = some s') {w : WorkerId}
    (ht : (stage (s'.workers w)).task = some t) :
    t < s.nextTask ∧ (s'.tasks t).target = (s.tasks t).target := by
  have hc := (step_change hs.dispatched hs.tracked h).1
  have hknown : t < s.nextTask := by
    rcases hc.task_of ht with hw | ⟨hp, -⟩
    · cases hst : stage (s.workers w) with
      | idle => rw [hst] at hw; cases hw
      | exited => rw [hst] at hw; cases hw
      | holds t' =>
        rw [hst] at hw
        obtain rfl := Option.some.inj hw
        exact (hs.dispatched.1.holds w t' hst).1
      | delivers t' r rest =>
        rw [hst] at hw
        obtain rfl := Option.some.inj hw
        exact (hs.dispatched.1.delivers w t' r rest hst).1
    · exact (hs.dispatched.1.pendingKey _ t hp).1
  exact ⟨hknown, hc.targets_eq hknown⟩

theorem step_evicts (hs : Sound cfg s) (h : step cfg a s = some s') (hno : ¬ Disturbs cfg t s a)
    (hd : t < s.nextTask → (s.tasks t).request.destination = destination) (hn : destination ≠ .Nvme)
    (i : Evicts destination t s) : Evicts destination t s' := by
  have hc := (step_change hs.dispatched hs.tracked h).1
  have hkey : ∀ {w : WorkerId}, (stage (s'.workers w)).task = some t →
      (s'.tasks t).key = (s.tasks t).key ∧ (s.tasks t).request.destination = destination := by
    intro w ht
    obtain ⟨hknown, htarget⟩ := known_before hs h ht
    exact ⟨congrArg Target.key htarget, hd hknown⟩
  have hstays : ∀ {w : WorkerId}, (stage (s.workers w)).task = some t →
      settledPast (s.workers w) = true → (s.tasks t).request.destination = destination →
      Reaches destination (s.tasks t).key s'.states ∧
        ((s.residentTransfers (s.tasks t).key).isSome = true →
          (s'.residentTransfers (s.tasks t).key).isSome = true) := by
    rintro w ht hpast rfl
    exact stays hs h hno hn ht hpast (i.reaches w ht hpast)
  refine ⟨fun hm => ?_, ?_, fun w ht => ?_, fun w ht hpast => ?_,
    fun w ht hpast => ?_⟩
  · rcases hc.history_eq with e | ⟨e', hsays, e⟩
    · exact i.unmarked (e ▸ hm)
    · rw [e] at hm
      rcases List.mem_cons.mp hm with he | hm
      · subst he
        cases hsays with
        | @markedFailed w _ result hw hw' =>
          have hproceeds := i.proceeds w (by rw [hw]; rfl)
          rw [hw] at hproceeds
          exact hproceeds
      · exact i.unmarked hm
  · refine Said.change hs.dispatched hc (fun w t' result rest ht hw => ?_)
      (fun n result he => nomatch he) i.said
    obtain rfl := Future.task.inj ht
    have hproceeds := i.proceeds w (by rw [hw]; rfl)
    rw [hw] at hproceeds
    exact hproceeds
  · rcases hc.next_of w with e | hnext
    · replace e : s'.workers w = s.workers w := e
      rw [e] at ht ⊢
      exact i.proceeds w ht
    · exact proceeds_next hs h hno i hnext ht
  · obtain ⟨hk, hd'⟩ := hkey ht
    rw [hk]
    rcases hc.next_of w with e | hnext
    · replace e : s'.workers w = s.workers w := e
      rw [e] at ht hpast
      exact (hstays ht hpast hd').1
    · obtain ⟨ht', hpast' | ⟨r, hw, -, hthread⟩⟩ := past_next hs h i hnext ht hpast
      · exact (hstays ht' hpast' hd').1
      · have hsettles := finish_settles hs hw
        rw [← hthread, hd'] at hsettles
        exact hsettles.reaches
  · obtain ⟨hk, hd'⟩ := hkey ht
    rw [hk]
    rcases hc.next_of w with e | hnext
    · replace e : s'.workers w = s.workers w := e
      rw [e] at ht hpast
      exact (hstays ht (settledPast_of_retainedPast hpast) hd').2 (i.retains w ht hpast)
    · obtain ⟨ht', hpast', hretained | ⟨r, -, hrecord⟩⟩ := retained_next hs h i hnext ht hpast
      · exact (hstays ht' hpast' hd').2 (i.retains w ht' hretained)
      · rw [hrecord, record_retains (hd'.symm ▸ hn)]
        rfl

/-! ## what is seen of an eviction -/

/-- while the eviction is pending, the expert is on its way, or at the destination, where somebody may
have acquired it -/
def Underway (t : TaskId) (s : Scheduler) : Prop :=
  s.pendingByExpert (s.tasks t).key = some t →
    (∃ e, s.states (s.tasks t).key = some e ∧ e.state = .Evicting) ∨
      Settles (s.tasks t).request.destination (s.tasks t).key s ∨
      isAcquired t s ∧ Reaches (s.tasks t).request.destination (s.tasks t).key s.states

/-- the step with which the eviction is no longer pending leaves the expert at the destination, and
its transfer retained unless that is NVMe -/
def Ends (t : TaskId) (s s' : Scheduler) : Prop :=
  s.pendingByExpert (s.tasks t).key = some t → s'.pendingByExpert (s.tasks t).key ≠ some t →
    Settles (s.tasks t).request.destination (s.tasks t).key s' ∧
      ((s'.residentTransfers (s.tasks t).key).isSome = true ↔
        (s.tasks t).request.destination ≠ .Nvme)

theorem underway_of_evicts (hs : Sound cfg s) (he : (s.tasks t).request.eviction = true)
    (hd : (s.tasks t).request.destination = destination) (i : Evicts destination t s) :
    Underway t s := by
  intro hp
  obtain ⟨e, hk⟩ := hs.tracked.pending _ t hp
  have htarget : (s.core.targets t).eviction = true := he
  by_cases hw : ∃ w, (stage (s.workers w)).task = some t
  · obtain ⟨w, hw⟩ := hw
    have hholds := holds_of_pending hs.dispatched hp hw
    obtain ⟨-, e', he', hagrees⟩ := held_task hs.dispatched hs.tracked hholds
    obtain rfl := Option.some.inj (hk.symm.trans he')
    rw [he] at hagrees
    have hproceeds := i.proceeds w hw
    have harrived : settledPast (s.workers w) = true →
        Settles (s.tasks t).request.destination (s.tasks t).key s ∨
          isAcquired t s ∧ Reaches (s.tasks t).request.destination (s.tasks t).key s.states := by
      intro hpast
      have hreaches := hd ▸ i.reaches w hw hpast
      by_cases hacquired : isAcquired t s
      · exact .inr ⟨hacquired, hreaches⟩
      · exact .inl (hreaches.settles hacquired)
    cases hpc : s.workers w with
    | popped t' => exact .inl ⟨e, hk, by rw [hpc] at hagrees; exact hagrees⟩
    | loading t' => exact .inl ⟨e, hk, by rw [hpc] at hagrees; exact hagrees⟩
    | transferred t' r => exact .inl ⟨e, hk, by rw [hpc] at hagrees; exact hagrees⟩
    | ready t' r => exact .inr (harrived (by rw [hpc]; rfl))
    | trimming t' r n candidates => exact .inr (harrived (by rw [hpc]; rfl))
    | recorded t' r => exact .inr (harrived (by rw [hpc]; rfl))
    | completing t' result => exact .inr (harrived (by rw [hpc]; rfl))
    | failing t' result =>
      rw [hpc] at hproceeds
      exact hproceeds.elim
    | failed t' result =>
      rw [hpc] at hproceeds
      exact hproceeds.elim
    | notifying t' result callbacks =>
      rw [hpc] at hholds
      cases hholds
    | waiting =>
      rw [hpc] at hholds
      cases hholds
    | exited =>
      rw [hpc] at hholds
      cases hholds
  · have hwaits := hs.tracked.waits _ t e hp hk fun w hw' => hw ⟨w, hw'⟩
    rw [htarget] at hwaits
    exact .inl ⟨e, hk, hwaits⟩

theorem ends_of_evicts (hs : Sound cfg s) (h : step cfg a s = some s') (hno : ¬ Disturbs cfg t s a)
    (hd : (s.tasks t).request.destination = destination) (hn : destination ≠ .Nvme)
    (i : Evicts destination t s) : Ends t s s' := by
  intro hp hgone
  have hc := (step_change hs.dispatched hs.tracked h).1
  have hpending : s'.pendingByExpert = s'.core.pendingByExpert := rfl
  rw [hpending] at hgone
  generalize hcore : s'.core = c at hc hgone
  have hstates : s'.states = c.states := congrArg Core.states hcore
  cases hc
  case completes w outcome t' result hw =>
    have hk : (s.tasks t').key = (s.tasks t).key := by
      by_contra hne
      exact hgone ((Function.update_of_ne (Ne.symm hne) ..).trans hp)
    obtain ⟨hp', -⟩ := held_task hs.dispatched hs.tracked (w := w) (t := t') (by rw [hw]; rfl)
    rw [hk, hp] at hp'
    obtain rfl := Option.some.inj hp'
    have ht : (stage (s.workers w)).task = some t := by rw [hw]; rfl
    have hpast : settledPast (s.workers w) = true := by rw [hw]; rfl
    have hfree : ¬ isAcquired t s := fun hacquired => not_disturbsAt hno hw ⟨rfl, hacquired⟩
    have hreaches := hd.symm ▸ i.reaches w ht hpast
    obtain ⟨e, he, hready, hat⟩ := hreaches.settles hfree
    obtain ⟨-, hres⟩ := stays hs h hno (hd.symm ▸ hn) ht hpast hreaches
    refine ⟨⟨e, (congrFun hstates _).trans he, hready, hat⟩,
      iff_of_true (hres (i.retains w ht ?_)) (hd.symm ▸ hn)⟩
    rw [hw]
    rfl
  case enqueue request callback e he hnone hi hc' ha =>
    refine (hgone ?_).elim
    show Function.update s.pendingByExpert request.key (some s.nextTask) (s.tasks t).key = some t
    rw [Function.update_of_ne, hp]
    intro hk
    rw [← hk, hp] at hnone
    cases hnone
  all_goals exact (hgone hp).elim

/-! ## other requests for the expert -/

/-- nothing about the task, its worker and its expert changes -/
structure SameTask (t : TaskId) (s s' : Scheduler) : Prop where
  target : (s'.tasks t).target = (s.tasks t).target
  pending : s'.pendingByExpert = s.pendingByExpert
  states : s'.states = s.states
  resident : s'.residentTransfers = s.residentTransfers
  workers : s'.workers = s.workers
  flags : s'.cancelled = s.cancelled

/-- the request has joined the task, or was refused for its destination or a shutdown; the task goes
on as before -/
structure JoinsOrRefused (t : TaskId) (request : ScheduleRequest) (s s' : Scheduler) : Prop where
  same : SameTask t s s'
  outcome : s.stopping = false ∧ (s.tasks t).request.destination = request.destination ∧
      (∃ x, s'.requests s.nextRequest = some x ∧ x.request = request ∧ x.future = .task t) ∧
      s'.history = .replied (.handle s.nextRequest) :: s.history ∨
    (s.stopping = true ∨ (s.tasks t).request.destination ≠ request.destination) ∧
      s'.requests = s.requests ∧ ∃ e, s'.history = .threw e :: s.history

/-- what becomes of another request for the expert of a pending task -/
def Meets (cfg : SchedulerConfig) (t : TaskId) (s : Scheduler) (a : Action) (s' : Scheduler) : Prop :=
  ∀ request, a.request cfg = some request → s.pendingByExpert request.key = some t →
    JoinsOrRefused t request s s'

theorem meets_schedule (hT : Tracked s.core) {request : ScheduleRequest} (callback : Bool)
    (hp : s.pendingByExpert request.key = some t) :
    JoinsOrRefused t request s (s.answer (schedule cfg request callback)) := by
  obtain ⟨e, he⟩ := hT.pending _ t hp
  -- what observing the request changes is not about the task
  have hobserved : ∀ {s₁ : Scheduler}, Observed request.key s s₁ → SameTask t s s₁ ∧
      s₁.requests = s.requests ∧ s₁.nextRequest = s.nextRequest ∧ s₁.history = s.history := by
    intro s₁ ho
    have htargets := congrArg Core.targets (core_of_observed ho)
    rw [ho.same] at htargets ⊢
    exact ⟨⟨congrFun htargets t, rfl, rfl, rfl, rfl, rfl⟩, rfl, rfl, rfl⟩
  have ho : ∀ {s₁ : Scheduler} {e : ExpertState} {existing : Option TaskId},
      s₁ = observeRequest cfg request e existing s → Observed request.key s s₁ := by
    rintro s₁ e existing rfl
    exact observed_observeRequest ..
  refine answer_of (P := JoinsOrRefused t request s) (wp_schedule_cases ?_ ?_ ?_ ?_ ?_ ?_ ?_)
  · intro hstop
    exact ⟨⟨rfl, rfl, rfl, rfl, rfl, rfl⟩, .inr ⟨.inl hstop, rfl, _, rfl⟩⟩
  · intro _ hnone
    exact nomatch hnone.symm.trans he
  · intro s₁ e' _ _ _ hi
    unfold immediatelyReady at hi
    rw [hp] at hi
    simp at hi
  · intro s₁ e' t' hs₁ _ _ hp' hne
    obtain rfl := Option.some.inj (hp.symm.trans hp')
    obtain ⟨hsame, hreq, -, hhist⟩ := hobserved (ho hs₁)
    refine ⟨⟨hsame.target, hsame.pending, hsame.states, hsame.resident, hsame.workers, hsame.flags⟩,
      .inr ⟨.inr hne, hreq, _, congrArg (List.cons _) hhist⟩⟩
  · intro s₁ e' t' hs₁ hstop _ hp' hd
    obtain rfl := Option.some.inj (hp.symm.trans hp')
    obtain ⟨hsame, hreq, hnext, hhist⟩ := hobserved (ho hs₁)
    have hcore := core_coalesce t request callback s₁
    have hhistory : (coalesce t request callback s₁).2.history = s₁.history := by
      show (putJoined ..).history = _
      unfold putJoined
      split <;> rfl
    have hflags : (coalesce t request callback s₁).2.cancelled = s₁.cancelled := by
      show (putJoined ..).cancelled = _
      unfold putJoined
      split <;> rfl
    have hrequests : (coalesce t request callback s₁).2.requests = _ := congrArg Core.requests hcore
    have hworkers : (coalesce t request callback s₁).2.workers = s₁.workers :=
      congrArg Core.workers hcore
    refine ⟨⟨?_, ?_, ?_, ?_, ?_, ?_⟩, .inl ⟨hstop, hd, ⟨⟨request, .task t, callback⟩, ?_, rfl, rfl⟩, ?_⟩⟩
    · exact (congrFun (congrArg Core.targets hcore) t).trans hsame.target
    · exact (congrArg Core.pendingByExpert hcore).trans hsame.pending
    · exact (congrArg Core.states hcore).trans hsame.states
    · exact (congrArg Core.residentTransfers hcore).trans hsame.resident
    · exact hworkers.trans hsame.workers
    · exact hflags.trans hsame.flags
    · show (coalesce t request callback s₁).2.requests s.nextRequest = _
      rw [hrequests, ← hnext]
      exact Function.update_self ..
    · show .replied (.handle s₁.nextRequest) :: (coalesce t request callback s₁).2.history = _
      rw [hhistory, hhist, hnext]
  · intro s₁ e' _ _ _ hnone
    exact nomatch hp.symm.trans hnone
  · intro s₁ e' _ _ _ hnone
    exact nomatch hp.symm.trans hnone

theorem meets_of_step (hs : Sound cfg s) (h : step cfg a s = some s') : Meets cfg t s a s' := by
  intro request hq hp
  obtain ⟨-, -, rfl⟩ := step_eq h
  cases a with
  | schedule request' callback =>
    obtain rfl := Option.some.inj hq
    exact meets_schedule hs.tracked callback hp
  | prefetch prediction callback =>
    obtain rfl := Option.some.inj hq
    exact meets_schedule hs.tracked callback hp
  | _ => exact nomatch hq

/-! ## the destination that is refused -/

def unsuccessful : WorkerPc → Prop
  | .transferred _ _ => False
  | .ready _ _ => False
  | .trimming _ _ _ _ => False
  | .recorded _ _ => False
  | .failing _ result => result.success = false
  | .failed _ result => result.success = false
  | .completing _ result => result.success = false
  | .notifying _ result _ => result.success = false
  | _ => True

structure Futile (t : TaskId) (s : Scheduler) : Prop where
  said : Said (fun result => result.success = false) s.core (.task t)
  worker : ∀ w, (stage (s.workers w)).task = some t → unsuccessful (s.workers w)

theorem new_futile (t : TaskId) : Futile t {} where
  said := ⟨fun _ h => (nomatch h), fun _ _ _ h => nomatch h⟩
  worker _ h := nomatch h

/-- the transfer manager completes no transfer to NVMe -/
theorem unsuccessful_next {pc pc' : WorkerPc} (hd : (s.tasks t).request.destination = .Nvme)
    (hn : Next cfg s pc pc') (hbefore : (stage pc).task = some t → unsuccessful pc)
    (ht : (stage pc').task = some t) : unsuccessful pc' := by
  cases hn
  case claim => exact trivial
  case exits => exact trivial
  case cancelled hr => exact hr
  case launch => exact trivial
  case aborted hr => exact hr
  case transferred t' r ha hs =>
    obtain rfl := Option.some.inj ht
    obtain ⟨hdestination, -⟩ := of_decide_eq_true ha
    exact absurd hd hdestination
  case notesFailure => exact hbefore ht
  case marksFailed => exact hbefore ht
  case completes => exact hbefore ht
  case calls => exact hbefore ht
  case resolves => exact trivial
  all_goals exact (hbefore ht).elim

theorem step_futile (hs : Sound cfg s) (h : step cfg a s = some s')
    (hd : t < s.nextTask → (s.tasks t).request.destination = .Nvme) (i : Futile t s) :
    Futile t s' := by
  have hc := (step_change hs.dispatched hs.tracked h).1
  refine ⟨?_, fun w ht => ?_⟩
  · refine Said.change hs.dispatched hc (fun w t' result rest ht hw => ?_)
      (fun n result he => nomatch he) i.said
    obtain rfl := Future.task.inj ht
    have hworker := i.worker w (by rw [hw]; rfl)
    rw [hw] at hworker
    exact hworker
  · have hknown := (known_before hs h ht).1
    rcases hc.next_of w with e | hnext
    · replace e : s'.workers w = s.workers w := e
      rw [e] at ht ⊢
      exact i.worker w ht
    · exact unsuccessful_next (hd hknown) hnext (i.worker w) ht

/-! ## runs -/

theorem run_target {as : List Action} (hs : Sound cfg s) (h : Runs.run (step cfg) s as = some s')
    (ht : t < s.nextTask) : (s'.tasks t).target = (s.tasks t).target := by
  have hkeeps : ∀ s₁ a s₂, step cfg a s₁ = some s₂ →
      Sound cfg s₁ ∧ t < s₁.nextTask ∧ (s₁.tasks t).target = (s.tasks t).target →
      Sound cfg s₂ ∧ t < s₂.nextTask ∧ (s₂.tasks t).target = (s.tasks t).target := by
    rintro s₁ a s₂ ha ⟨hs₁, ht₁, htarget⟩
    have hc := (step_change hs₁.dispatched hs₁.tracked ha).1
    exact ⟨step_sound hs₁ ha, Nat.lt_of_lt_of_le ht₁ hc.nextTask_eq, (hc.targets_eq ht₁).trans htarget⟩
  exact (Runs.run_invariant hkeeps ⟨hs, ht, rfl⟩ h).2.2

/-- all along a run, what the task asks for is what it asks for in the end -/
theorem along_target (as : List Action) (hs : Sound cfg s)
    (h : Runs.run (step cfg) s as = some s') :
    Runs.Along (step cfg) (fun s₁ _ _ => t < s₁.nextTask →
      (s₁.tasks t).target = (s'.tasks t).target) s as := by
  induction as generalizing s with
  | nil => exact trivial
  | cons a as ih =>
    unfold Runs.Along
    cases ha : step cfg a s with
    | none => exact trivial
    | some s₁ =>
      rw [Runs.run_cons as ha] at h
      have hs₁ := step_sound hs ha
      have hc := (step_change hs.dispatched hs.tracked ha).1
      refine ⟨fun ht => ?_, ih hs₁ h⟩
      have ht₁ : t < s₁.nextTask := Nat.lt_of_lt_of_le ht hc.nextTask_eq
      exact (hc.targets_eq ht).symm.trans (run_target hs₁ h ht₁).symm

end

/-- all consumers of the task get a success, with the expert at its destination -/
structure EndsWell (cfg : SchedulerConfig) (s : Scheduler) (t : TaskId) : Prop where
  unmarked : .markedFailed t ∉ s.history
  delivered : ∀ n x, s.requests n = some x → x.future = .task t →
    (∀ result ∈ deliveries x.future s.history, Arrives (s.tasks t).request.destination result) ∧
      ∀ result ∈ callbackCalls n s.history, Arrives (s.tasks t).request.destination result
  /-- no thread is stuck before they have got it -/
  answered : Stuck cfg s → ∀ n x, s.requests n = some x → x.future = .task t →
    ∃ result, Arrives (s.tasks t).request.destination result ∧
      deliveries x.future s.history = [result] ∧
      callbackCalls n s.history = if x.callback then [result] else []

theorem endsWell_of_evicts {t : TaskId} (hs : Sound cfg s)
    (i : Evicts (s.tasks t).request.destination t s) : EndsWell cfg s t := by
  have hresolved : ∀ result ∈ deliveries (.task t) s.history,
      Arrives (s.tasks t).request.destination result :=
    fun result hm => i.said.resolved result (noted_mem rfl (mem_resolved hm))
  refine ⟨fun hm => i.unmarked (noted_mem rfl hm), fun n x hx hf => ⟨fun result hm => ?_,
    fun result hm => ?_⟩, fun hstuck n x hx hf => ?_⟩
  · exact hresolved result (hf ▸ hm)
  · exact i.said.called n x result hx hf (noted_mem rfl (mem_called hm))
  · obtain ⟨hq, hw, hcalls⟩ := rest_of_stuck hs hstuck
    obtain ⟨result, hdelivered, hcalled⟩ := (settled_of_rest hs.dispatched hq hw).2 n x hx (hcalls n)
    refine ⟨result, hresolved result ?_, hdelivered, hcalled⟩
    rw [← hf, hdelivered]
    exact List.mem_cons_self

/-- An eviction to another tier than NVMe ends well in every run without a step that disturbs it, with
its transfer retained, and other requests for the expert join it or are refused; one to NVMe succeeds
in no run. -/
theorem run_evicts {as : List Action} {t : TaskId} (h : run cfg as = some s)
    (he : (s.tasks t).request.eviction = true) :
    ((s.tasks t).request.destination ≠ .Nvme →
      Runs.Along (step cfg) (fun s a _ => ¬ Disturbs cfg t s a) {} as →
        EndsWell cfg s t ∧ Underway t s ∧
          Runs.Along (step cfg) (fun s a s' => Ends t s s' ∧ Meets cfg t s a s') {} as) ∧
    ((s.tasks t).request.destination = .Nvme → ∀ n x, s.requests n = some x → x.future = .task t →
      (∀ result ∈ deliveries x.future s.history, result.success = false) ∧
        ∀ result ∈ callbackCalls n s.history, result.success = false) := by
  have htargets := along_target (t := t) as new_sound h
  have hdestination : ∀ {s₁ : Scheduler}, (s₁.tasks t).target = (s.tasks t).target →
      (s₁.tasks t).request.destination = (s.tasks t).request.destination :=
    fun htarget => congrArg Target.destination htarget
  refine ⟨fun hn hno => ?_, fun hn n x hx hf => ?_⟩
  · have hstep : ∀ s₁ a s₂, step cfg a s₁ = some s₂ → (¬ Disturbs cfg t s₁ a ∧
        (t < s₁.nextTask → (s₁.tasks t).target = (s.tasks t).target)) →
        Sound cfg s₁ ∧ Evicts (s.tasks t).request.destination t s₁ →
        Sound cfg s₂ ∧ Evicts (s.tasks t).request.destination t s₂ := by
      rintro s₁ a s₂ ha ⟨hno₁, htarget⟩ ⟨hs, i⟩
      exact ⟨step_sound hs ha, step_evicts hs ha hno₁ (fun ht₁ => hdestination (htarget ht₁)) hn i⟩
    have hinit : Sound cfg ({} : Scheduler) ∧ Evicts (s.tasks t).request.destination t {} :=
      ⟨new_sound, new_evicts _ t⟩
    have hboth := Runs.along_and hno htargets
    obtain ⟨hs, i⟩ := Runs.run_keeps hstep as _ _ hboth hinit h
    refine ⟨endsWell_of_evicts hs i, underway_of_evicts hs he rfl i, ?_⟩
    refine Runs.along_of_keeps hstep ?_ as _ hboth hinit
    rintro s₁ a s₂ ha ⟨hno₁, htarget⟩ ⟨hs₁, i₁⟩
    refine ⟨fun hp => ?_, meets_of_step hs₁ ha⟩
    have ht₁ : t < s₁.nextTask := (hs₁.dispatched.1.pendingKey _ t hp).1
    exact ends_of_evicts hs₁ ha hno₁ (hdestination (htarget ht₁)) hn i₁ hp
  · have hstep : ∀ s₁ a s₂, step cfg a s₁ = some s₂ →
        (t < s₁.nextTask → (s₁.tasks t).target = (s.tasks t).target) →
        Sound cfg s₁ ∧ Futile t s₁ → Sound cfg s₂ ∧ Futile t s₂ := by
      rintro s₁ a s₂ ha htarget ⟨hs, i⟩
      refine ⟨step_sound hs ha, step_futile hs ha (fun ht₁ => ?_) i⟩
      exact (hdestination (htarget ht₁)).trans hn
    have hinit : Sound cfg ({} : Scheduler) ∧ Futile t {} := ⟨new_sound, new_futile t⟩
    obtain ⟨-, i⟩ := Runs.run_keeps hstep as _ _ htargets hinit h
    exact ⟨fun result hm => i.said.resolved result (noted_mem rfl (mem_resolved (hf ▸ hm))),
      fun result hm => i.said.called n x result hx hf (noted_mem rfl (mem_called hm))⟩

/-- the expert 0 of layer 0, from VRAM to the destination -/
def evictionOf (destination : MemoryTier) : ScheduleRequest where
  source := .Vram
  destination := destination
  deviceBuffer := some ⟨0, [1, 2], true⟩
  eviction := true

/-- what the manager makes of the eviction to RAM -/
def evictedCopy : TransferResult where
  status := .Completed
  record := ⟨0, 0, 0, 2⟩
  buffer := some ⟨0, [1, 2], true⟩
  source := .Vram
  destination := .Ram

/-- an eviction to RAM, a request that joins it, and one that is refused; between the copy and the end
the expert is acquired and released, and the eviction is cancelled too late -/
def evictionRun : List Action :=
  .registerExpert (0, 0) .Vram :: .schedule (evictionOf .Ram) true ::
    .schedule { destination := .Ram } true :: .schedule {} true :: loadInto evictedCopy ++
      .acquire (0, 0) :: .work 0 (.error .outOfFuel) :: .release (0, 0) :: .cancel 0 :: .shutdown ::
        List.replicate 5 (.work 0 (.error .outOfFuel))

theorem run_evicts_to_ram : ∃ s, run {} evictionRun = some s ∧
    (callbackCalls 0 s.history).length = 1 ∧ EndsWell {} s 0 ∧ Underway 0 s ∧
      Runs.Along (step {}) (fun s a s' => Ends 0 s s' ∧ Meets {} 0 s a s') {} evictionRun := by
  have hfacts : (run {} evictionRun).map (fun s => ((s.tasks 0).request.eviction,
      (s.tasks 0).request.destination, (callbackCalls 0 s.history).length)) =
      some (true, .Ram, 1) := by decide +kernel
  cases h : run {} evictionRun with
  | none =>
    rw [h] at hfacts
    exact nomatch hfacts
  | some s =>
    rw [h] at hfacts
    replace hfacts := Option.some.inj hfacts
    simp only [Prod.mk.injEq] at hfacts
    obtain ⟨he, hd, hlength⟩ := hfacts
    exact ⟨s, rfl, hlength, (run_evicts h he).1 (by rw [hd]; exact nofun) (by decide +kernel)⟩

/-- the same to NVMe: the manager refuses, and the expert is marked failed -/
theorem not_evicted_to_nvme :
    (run {} (.registerExpert (0, 0) .Vram :: .schedule (evictionOf .Nvme) true ::
      List.replicate 8 (.work 0 (.error (.invalidArgument "a load destination cannot be NVMe"))))).map
      (fun s => (s.requests 0, (s.states (0, 0)).map fun e => (e.state, e.currentLocation),
        (callbackCalls 0 s.history).map fun result => (result.success, result.error))) =
      some (some ⟨evictionOf .Nvme, .task 0, true⟩, some (.Failed, .Vram),
        [(false, "a load destination cannot be NVMe")]) := by
  decide +kernel

end HyperMoE.Scheduler
