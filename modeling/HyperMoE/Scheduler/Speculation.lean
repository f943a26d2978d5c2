import HyperMoE.Scheduler.Lifecycle

/-!
# What is held for prefetches

The marks of prefetched experts, the retained transfers, and the two loops that go through them
under `mutex_`.

* `Ledger`            this part of the state;
* `LedgerStep`        what a step can do to it;
* `step_ledger`       a step does nothing else to it;
* `LedgerStep.nodup`  an expert is marked once.
-/

namespace HyperMoE.Scheduler

open Lib Lib.Fallible

variable {cfg : SchedulerConfig} {s s' : Scheduler}

/-- where the loop that bounds speculative ownership stands -/
structure Trimming where
  task : TaskId
  cachedBytes : Nat
  candidates : List ExpertKey

def trimming : WorkerPc → Option Trimming
  | .trimming t _ cachedBytes candidates => some ⟨t, cachedBytes, candidates⟩
  | _ => none

structure Ledger where
  prefetchedReady : List ExpertKey
  residentTransfers : ExpertKey → Option TransferResult
  lock : Option Holder
  trimming : WorkerId → Option Trimming

def ledger (s : Scheduler) : Ledger where
  prefetchedReady := s.prefetchedReady
  residentTransfers := s.residentTransfers
  lock := s.lock
  trimming w := trimming (s.workers w)

/-- a task whose finished transfer counts as speculative -/
def speculative (task : Task) : Bool := task.prefetchRequest && !task.activeConsumer

theorem speculative_iff {task : Task} :
    speculative task = true ↔ task.prefetchRequest = true ∧ task.activeConsumer = false := by
  simp [speculative]

/-- what a step can do to the ledger -/
inductive LedgerStep (cfg : SchedulerConfig) (s : Scheduler) : Action → Ledger → Prop where
  | same {a : Action} (ha : a ≠ .expireNext) : LedgerStep cfg s a s.ledger
  /-- an active request, or an adopted transfer -/
  | unmarks {a : Action} {k : ExpertKey} (ha : a ≠ .expireNext) (hl : s.lock = none) :
      LedgerStep cfg s a { s.ledger with prefetchedReady := s.prefetchedReady.erase k }
  /-- a prefetch that was answered at once -/
  | marks {a : Action} {request : ScheduleRequest} {e : ExpertState}
      (hq : a.request cfg = some request) (hl : s.lock = none)
      (he : s.states request.key = some e) (hp : request.isPrefetch = true)
      (hi : immediatelyReady request e (s.pendingByExpert request.key) = true) :
      LedgerStep cfg s a { s.ledger with
        prefetchedReady := s.prefetchedReady.insert request.key }
  | acknowledges {k : ExpertKey} {location : MemoryTier} (hl : s.lock = none) :
      LedgerStep cfg s (.acknowledgeResidency k location) { s.ledger with
        prefetchedReady := s.prefetchedReady.erase k
        residentTransfers := Function.update s.residentTransfers k none }
  | expireBegins {layerId : LayerId} {order : List ExpertKey} (hl : s.lock = none)
      (ho : order.Perm s.prefetchedReady) :
      LedgerStep cfg s (.expirePrefetchesBefore layerId order) { s.ledger with
        lock := some (.expiring layerId order 0) }
  | expireKeeps {layerId : LayerId} {k : ExpertKey} {rest : List ExpertKey} {wasted : Nat}
      (hl : s.lock = some (.expiring layerId (k :: rest) wasted)) (hk : ¬ k.1 < layerId) :
      LedgerStep cfg s .expireNext { s.ledger with lock := some (.expiring layerId rest wasted) }
  | expires {layerId : LayerId} {k : ExpertKey} {rest : List ExpertKey} {wasted : Nat}
      (hl : s.lock = some (.expiring layerId (k :: rest) wasted)) (hk : k.1 < layerId) :
      LedgerStep cfg s .expireNext { s.ledger with
        prefetchedReady := s.prefetchedReady.erase k
        residentTransfers := Function.update s.residentTransfers k none
        lock := some (.expiring layerId rest (wasted + 1)) }
  | expireRefused {layerId : LayerId} {k : ExpertKey} {rest : List ExpertKey} {wasted : Nat}
      (hl : s.lock = some (.expiring layerId (k :: rest) wasted)) (hk : k.1 < layerId)
      (hr : ∀ e, s.states k = some e → ¬ reconcilable e.state) :
      LedgerStep cfg s .expireNext { s.ledger with
        residentTransfers := Function.update s.residentTransfers k none
        lock := none }
  | expireEnds {layerId : LayerId} {wasted : Nat}
      (hl : s.lock = some (.expiring layerId [] wasted)) :
      LedgerStep cfg s .expireNext { s.ledger with lock := none }
  | records {w : WorkerId} {outcome : TransferOutcome} {t : TaskId} {r : TransferResult}
      (hw : s.workers w = .ready t r) (hl : s.lock = none)
      (ht : speculative (s.tasks t) = false) :
      LedgerStep cfg s (.work w outcome) { s.ledger with
        residentTransfers := Function.update s.residentTransfers (s.tasks t).key
          (if (s.tasks t).request.destination = .Nvme then none else some r) }
  | bounds {w : WorkerId} {outcome : TransferOutcome} {t : TaskId} {r : TransferResult}
      (hw : s.workers w = .ready t r) (hl : s.lock = none)
      (ht : speculative (s.tasks t) = true) :
      LedgerStep cfg s (.work w outcome) {
        prefetchedReady := s.prefetchedReady.insert (s.tasks t).key
        residentTransfers := Function.update s.residentTransfers (s.tasks t).key
          (if (s.tasks t).request.destination = .Nvme then none else some r)
        lock := some (.worker w)
        trimming := Function.update s.ledger.trimming w (some
          ⟨t, 0, (s.prefetchedReady.insert (s.tasks t).key).insertionSort keyLe⟩) }
  | skips {w : WorkerId} {outcome : TransferOutcome} {t : TaskId} {cachedBytes : Nat}
      {c : ExpertKey} {rest : List ExpertKey}
      (hw : trimming (s.workers w) = some ⟨t, cachedBytes, c :: rest⟩)
      (hf : s.residentTransfers c = none) :
      LedgerStep cfg s (.work w outcome) { s.ledger with
        trimming := Function.update s.ledger.trimming w (some ⟨t, cachedBytes, rest⟩) }
  | keeps {w : WorkerId} {outcome : TransferOutcome} {t : TaskId} {cachedBytes : Nat}
      {c : ExpertKey} {rest : List ExpertKey} {found : TransferResult}
      (hw : trimming (s.workers w) = some ⟨t, cachedBytes, c :: rest⟩)
      (hf : s.residentTransfers c = some found) (hx : fits cfg cachedBytes found = true) :
      LedgerStep cfg s (.work w outcome) { s.ledger with
        trimming := Function.update s.ledger.trimming w
          (some ⟨t, cachedBytes + found.record.size, rest⟩) }
  | drops {w : WorkerId} {outcome : TransferOutcome} {t : TaskId} {cachedBytes : Nat}
      {c : ExpertKey} {rest : List ExpertKey} {found : TransferResult}
      (hw : trimming (s.workers w) = some ⟨t, cachedBytes, c :: rest⟩)
      (hf : s.residentTransfers c = some found) (hx : fits cfg cachedBytes found = false) :
      LedgerStep cfg s (.work w outcome) { s.ledger with
        prefetchedReady := s.prefetchedReady.erase c
        residentTransfers := Function.update s.residentTransfers c none
        trimming := Function.update s.ledger.trimming w (some ⟨t, cachedBytes, rest⟩) }
  | dropRefused {w : WorkerId} {outcome : TransferOutcome} {t : TaskId} {cachedBytes : Nat}
      {c : ExpertKey} {rest : List ExpertKey} {found : TransferResult}
      (hw : trimming (s.workers w) = some ⟨t, cachedBytes, c :: rest⟩)
      (hf : s.residentTransfers c = some found) (hx : fits cfg cachedBytes found = false)
      (hc : c ≠ (s.tasks t).key) (hr : ∀ e, s.states c = some e → ¬ reconcilable e.state) :
      LedgerStep cfg s (.work w outcome) {
        prefetchedReady := s.prefetchedReady.erase c
        residentTransfers := Function.update s.residentTransfers c none
        lock := none
        trimming := Function.update s.ledger.trimming w none }
  | trimmed {w : WorkerId} {outcome : TransferOutcome} {t : TaskId} {cachedBytes : Nat}
      (hw : trimming (s.workers w) = some ⟨t, cachedBytes, []⟩) :
      LedgerStep cfg s (.work w outcome) { s.ledger with
        lock := none
        trimming := Function.update s.ledger.trimming w none }

/-! ## the rounds of the two loops -/

/-- a key of an older layer: what is retained goes, then the record, then the mark -/
structure Expired (s : Scheduler) (layerId : LayerId) (k : ExpertKey) (rest : List ExpertKey)
    (wasted : Nat) (e : ExpertState) (s' : Scheduler) : Prop where
  found : s.states k = some e
  allowed : reconcilable e.state
  after : s' = { s with
    states := s.states.set k (e.settled .Nvme)
    residentTransfers := Function.update s.residentTransfers k none
    prefetchedReady := s.prefetchedReady.erase k
    lock := some (.expiring layerId rest (wasted + 1)) }

/-- the record does not allow it: what is retained is gone, and the loop left -/
structure Refused (s : Scheduler) (k : ExpertKey) (s' : Scheduler) : Prop where
  refused : ∀ e, s.states k = some e → ¬ reconcilable e.state
  after : ∃ x, s' = ((forget k s).log (.threw x)).unlock

theorem expire_newer {layerId : LayerId} {k : ExpertKey} {rest : List ExpertKey} {wasted : Nat}
    (hk : ¬ k.1 < layerId) : s.thread (expire cfg layerId wasted (k :: rest)) =
      { s with lock := some (.expiring layerId rest wasted) } := by
  refine thread_of (P := fun s' => s' = _) ?_
  show wp (tryCatch (if k.1 < layerId then _ else _) _) _ s
  rw [if_neg hk]
  exact rfl

theorem expire_older (cfg : SchedulerConfig) (s : Scheduler) {layerId : LayerId} {k : ExpertKey}
    (rest : List ExpertKey) (wasted : Nat) (hk : k.1 < layerId) :
    (∃ e, Expired s layerId k rest wasted e (s.thread (expire cfg layerId wasted (k :: rest)))) ∨
      Refused s k (s.thread (expire cfg layerId wasted (k :: rest))) := by
  refine thread_of (P := fun s' => (∃ e, Expired s layerId k rest wasted e s') ∨ Refused s k s') ?_
  show wp (tryCatch (if k.1 < layerId then _ else _) _) _ s
  rw [if_pos hk, wp_tryCatch]
  show wp (_ >>= _) _ s
  rw [wp_bind, wp_update]
  show wp (_ >>= _) _ (forget k s)
  rw [wp_bind]
  apply wp_reconcile
  · exact fun e he hr => .inl ⟨e, he, hr, rfl⟩
  · exact fun hr x => .inr ⟨hr, x, rfl⟩

/-- a worker goes on -/
theorem ledger_goto (w : WorkerId) (pc : WorkerPc) (s : Scheduler) : (s.goto w pc).ledger =
    { s.ledger with trimming := Function.update s.ledger.trimming w (trimming pc) } := by
  have htrimming := map_update trimming s.workers w pc
  unfold ledger goto
  exact congrArg (Ledger.mk s.prefetchedReady s.residentTransfers s.lock) htrimming

theorem ledger_count (f : PrefetchCounters → PrefetchCounters) (s : Scheduler) :
    (s.count cfg f).ledger = s.ledger := by
  unfold count
  split <;> rfl

theorem LedgerStep.of {a : Action} {l : Ledger} (h : LedgerStep cfg s a l) (hl : s'.ledger = l) :
    LedgerStep cfg s a s'.ledger := hl ▸ h

theorem ledgerStep_trim {w : WorkerId} {outcome : TransferOutcome} {t : TaskId} {r : TransferResult}
    {cachedBytes : Nat} {c : ExpertKey} {rest : List ExpertKey}
    (hw : s.workers w = .trimming t r cachedBytes (c :: rest)) :
    LedgerStep cfg s (.work w outcome)
      (s.thread (guarded unlock w t (trim cfg w t r cachedBytes c rest))).ledger := by
  have htrim : trimming (s.workers w) = some ⟨t, cachedBytes, c :: rest⟩ := by rw [hw]; rfl
  refine thread_of (P := fun s' => LedgerStep cfg s (.work w outcome) s'.ledger) ?_
  show wp (tryCatch _ _) _ s
  rw [wp_tryCatch]
  show wp (read >>= _) _ s
  rw [wp_bind, wp_read]
  dsimp only
  cases hf : s.residentTransfers c with
  | none => exact .of (.skips htrim hf) (ledger_goto w (.trimming t r cachedBytes rest) s)
  | some found =>
    show wp (if _ then _ else _) _ s
    split
    · next hx => exact .of (.keeps htrim hf hx) (ledger_goto w _ s)
    · next hx =>
      have hx' : fits cfg cachedBytes found = false := by simpa using hx
      let s₁ := forgetPrefetched c (forget c s)
      have hcounted : ∀ s₂ : Scheduler, s₂.ledger = s₁.ledger → LedgerStep cfg s (.work w outcome)
          ((s₂.count cfg (.wasting 1)).goto w (.trimming t r cachedBytes rest)).ledger := by
        intro s₂ h₂
        refine .of (.drops htrim hf hx') ?_
        rw [ledger_goto, ledger_count, h₂]
        rfl
      show wp (drop cfg t c >>= _) _ s
      rw [wp_bind]
      show wp (_ >>= _) _ s
      rw [wp_bind, wp_update]
      show wp (_ >>= _) _ (forget c s)
      rw [wp_bind, wp_update]
      show wp (read >>= _) _ s₁
      rw [wp_bind, wp_read]
      show wp (_ >>= _) _ s₁
      rw [wp_bind]
      by_cases hc : c = (s.tasks t).key
      · rw [if_neg (fun h => h hc)]
        exact hcounted s₁ rfl
      · rw [if_pos (show c ≠ (s₁.tasks t).key from hc)]
        apply wp_reconcile
        · intro e he hr
          exact hcounted (s₁.setStates (s₁.states.set c (e.settled .Nvme))) rfl
        · intro hr x
          exact .of (.dropRefused htrim hf hx' hc hr) (ledger_goto w (.failing t (failure x)) s₁.unlock)

/-! ## the steps outside of the loops -/

/-- the ledger without the places of the workers -/
def held (s : Scheduler) : List ExpertKey × (ExpertKey → Option TransferResult) × Option Holder :=
  (s.prefetchedReady, s.residentTransfers, s.lock)

theorem leaves_onStates {τ α : Type} {f : Scheduler → τ}
    (h : ∀ states (s : Scheduler), f (s.setStates states) = f s) (x : States.Code α) :
    Leaves f (onStates x) := leaves_zoom h x

/-- `f` does not look at the records, the queue, the threads and the history, nor at a task beyond
whether it is speculative -/
structure Aside {τ : Type} (f : Scheduler → τ) : Prop where
  states : ∀ states s, f (setStates states s) = f s
  queue : ∀ queue s, f { s with queue := queue } = f s
  pending : ∀ pendingByExpert s, f { s with pendingByExpert := pendingByExpert } = f s
  tasks : ∀ t task s, speculative task = speculative (s.tasks t) → f (s.setTask t task) = f s
  flags : ∀ stopping joining cancelled s,
    f { s with stopping := stopping, joining := joining, cancelled := cancelled } = f s
  goto : ∀ w pc s, f (goto w pc s) = f s
  setCall : ∀ n call s, f (setCall n call s) = f s
  log : ∀ e s, f (log e s) = f s

theorem held_aside : Aside held := by constructor <;> intros <;> rfl

namespace Aside

variable {τ : Type} {f : Scheduler → τ} (hf : Aside f)

include hf

theorem onStates {α : Type} (x : States.Code α) : Leaves f (onStates x) :=
  leaves_onStates hf.states x

theorem goes (w : WorkerId) (pc : WorkerPc) : Leaves f (update (Scheduler.goto w pc) : Code Unit) :=
  leaves_update (hf.goto w pc)

theorem pop (w : WorkerId) (s : Scheduler) : f (s.pop w) = f s := by
  unfold Scheduler.pop
  split
  · exact hf.goto ..
  · split
    · next t rest _ =>
      show f (Scheduler.log _ (Scheduler.goto _ _ (setTask t _ { s with queue := rest }))) = f s
      rw [hf.log, hf.goto]
      refine Eq.trans (hf.tasks t _ _ ?_) (hf.queue rest s)
      rfl
    · show f (Scheduler.goto _ _ { s with queue := [] }) = f s
      rw [hf.goto, hf.queue]

theorem awaitTransfer (w : WorkerId) (t : TaskId) (outcome : TransferOutcome) (s : Scheduler) :
    f (s.awaitTransfer w t outcome) = f s := by
  unfold Scheduler.awaitTransfer
  split
  · exact hf.goto ..
  · split
    · exact hf.goto ..
    · rw [hf.log, hf.goto]

theorem complete (w : WorkerId) (t : TaskId) (result : ScheduleResult) (s : Scheduler) :
    f (s.complete w t result) = f s := by
  unfold Scheduler.complete
  split
  · exact hf.goto ..
  · rw [hf.goto]
    refine Eq.trans (hf.tasks t _ _ ?_) (hf.pending _ s)
    rfl

theorem notify (w : WorkerId) (t : TaskId) (result : ScheduleResult) (callbacks : List RequestId)
    (s : Scheduler) : f (s.notify w t result callbacks) = f s := by
  cases callbacks with
  | nil =>
    show f (Scheduler.log _ (Scheduler.goto _ _ s)) = f s
    rw [hf.log, hf.goto]
  | cons n rest =>
    show f (Scheduler.log _ (Scheduler.goto _ _ s)) = f s
    rw [hf.log, hf.goto]

theorem guarded {w : WorkerId} {t : TaskId} {x : Code Unit} (h : Leaves f x) :
    Leaves f (guarded id w t x) := h.catch fun _ => hf.goes w _

theorem work {w : WorkerId} {outcome : TransferOutcome} {pc : WorkerPc}
    (hready : ∀ t r, pc ≠ .ready t r) (htrim : trimming pc = none) :
    Leaves f (work cfg w outcome pc) := by
  cases pc with
  | waiting => exact leaves_update fun s => hf.pop w s
  | popped t =>
    refine leaves_read.bind fun s => leaves_ite _ (hf.goes w _) ?_
    exact (leaves_ite _ (leaves_pure ()) (hf.onStates _)).bind fun _ => hf.goes w _
  | loading t => exact leaves_update fun s => hf.awaitTransfer w t outcome s
  | transferred t r =>
    apply hf.guarded
    exact leaves_read.bind fun s => (hf.onStates _).bind fun _ => hf.goes w _
  | ready t r => exact absurd rfl (hready t r)
  | trimming t r cachedBytes candidates => exact nomatch htrim
  | recorded t r =>
    apply hf.guarded
    exact leaves_read.bind fun s => (hf.onStates _).bind fun _ => hf.goes w _
  | failing t result =>
    refine leaves_read.bind fun s => (hf.onStates _).bind fun _ => leaves_update fun s => ?_
    rw [hf.log, hf.goto]
  | failed t result =>
    exact leaves_read.bind fun s => (hf.onStates _).bind fun _ => hf.goes w _
  | completing t result => exact leaves_update fun s => hf.complete w t result s
  | notifying t result callbacks => exact leaves_update fun s => hf.notify w t result callbacks s
  | exited => exact leaves_pure ()

end Aside

/-- outside of the two loops a worker that is not in the loop does not enter it -/
theorem Next.trimming_eq {pc pc' : WorkerPc} (h : Next cfg s pc pc')
    (hready : ∀ t r, pc ≠ .ready t r) (htrim : trimming pc = none) : trimming pc' = none := by
  cases h
  case record => exact absurd rfl (hready _ _)
  case bound => exact absurd rfl (hready _ _)
  case round => exact nomatch htrim
  all_goals rfl

theorem leaves_answer {τ : Type} {f : Scheduler → τ} (hlog : ∀ e s, f (log e s) = f s)
    {x : Code Reply} (h : Leaves f x) : f (s.answer x) = f s := by
  have hx := h s
  unfold answer
  cases hr : x.exec s with
  | mk r s' =>
    rw [hr] at hx
    cases r with
    | ok reply => exact (hlog ..).trans hx
    | error e => exact (hlog ..).trans hx

theorem leaves_thread {τ : Type} {f : Scheduler → τ}
    (hend : ∀ s : Scheduler, f { s with terminated := true } = f s) {x : Code Unit}
    (h : Leaves f x) : f (s.thread x) = f s := by
  have hx := h s
  unfold thread
  cases hr : x.exec s with
  | mk r s' =>
    rw [hr] at hx
    cases r with
    | ok _ => exact hx
    | error e => exact (hend s').trans hx

theorem ledger_answer {x : Code Reply} (h : Leaves ledger x) : (s.answer x).ledger = s.ledger :=
  leaves_answer (fun _ _ => rfl) h

theorem ledger_thread {x : Code Unit} (h : Leaves ledger x) : (s.thread x).ledger = s.ledger :=
  leaves_thread (fun _ => rfl) h

theorem ledgerStep_work {w : WorkerId} {outcome : TransferOutcome} (hs : Sound cfg s)
    (h : step cfg (.work w outcome) s = some s') : LedgerStep cfg s (.work w outcome) s'.ledger := by
  obtain ⟨hc, -⟩ := step_change hs.dispatched hs.tracked h
  obtain ⟨-, hallows, rfl⟩ := step_eq h
  have hcan : (w < cfg.workerCount ∧ s.canWork w outcome = true : Bool) = true := hallows
  replace hcan : s.canWork w outcome = true := (of_decide_eq_true hcan).2
  by_cases hready : ∃ t r, s.workers w = .ready t r
  · obtain ⟨t, r, hw⟩ := hready
    have hl : s.lock = none := by
      unfold canWork at hcan
      rw [hw] at hcan
      exact of_decide_eq_true hcan
    show LedgerStep cfg s _ (s.thread (work cfg w outcome (s.workers w))).ledger
    rw [hw]
    show LedgerStep cfg s _ (if _ then _ else _ : Scheduler).ledger
    split
    · next ht =>
      exact .of (.bounds hw hl (speculative_iff.mpr ht)) (ledger_goto w _ _)
    · next ht =>
      have ht' : speculative (s.tasks t) = false := by
        rw [← Bool.not_eq_true, speculative_iff]
        exact ht
      refine .of (.records hw hl ht') ?_
      rw [ledger_goto]
      have hnone : Function.update s.ledger.trimming w none = s.ledger.trimming := by
        rw [show (none : Option Trimming) = s.ledger.trimming w by
          show none = trimming (s.workers w)
          rw [hw]
          rfl]
        exact Function.update_eq_self ..
      exact congrArg (Ledger.mk _ _ _) hnone
  · replace hready : ∀ t r, s.workers w ≠ .ready t r := fun t r hw => hready ⟨t, r, hw⟩
    cases htrim : trimming (s.workers w) with
    | some loop =>
      cases hw : s.workers w with
      | trimming t r cachedBytes candidates =>
        show LedgerStep cfg s _ (s.thread (work cfg w outcome (s.workers w))).ledger
        rw [hw]
        cases candidates with
        | nil =>
          refine .of (@LedgerStep.trimmed cfg s w outcome t cachedBytes ?_)
            (ledger_goto w (.recorded t r) s.unlock)
          rw [hw]
          rfl
        | cons c rest => exact ledgerStep_trim hw
      | _ =>
        rw [hw] at htrim
        exact nomatch htrim
    | none =>
      have hheld : (s.perform cfg (.work w outcome)).held = s.held :=
        leaves_thread (fun _ => rfl) (held_aside.work hready htrim)
      have hworkers : (fun w' => trimming ((s.perform cfg (.work w outcome)).workers w')) =
          s.ledger.trimming := by
        funext w'
        rcases hc.workers_eq with he | ⟨w₁, _, pc, ha, hnext, he⟩
        · exact congrArg trimming (congrFun he w')
        · obtain ⟨rfl, -⟩ := Action.work.inj ha
          have he' := congrArg trimming (congrFun he w')
          refine he'.trans ?_
          rw [Function.update_apply]
          split
          · next hw => rw [hnext.trimming_eq hready htrim, hw]; exact htrim.symm
          · rfl
      refine .of (.same (fun h => nomatch h)) ?_
      obtain ⟨hp, hrest⟩ := Prod.mk.inj hheld
      obtain ⟨hr, hl⟩ := Prod.mk.inj hrest
      unfold ledger
      rw [hp, hr, hl]
      exact congrArg (Ledger.mk _ _ _) hworkers

/-! ## the operations -/

theorem Observed.ledger {k : ExpertKey} {s₁ : Scheduler} (h : Observed k s s₁) : s₁.ledger = s.ledger ∨
    s₁.ledger = { s.ledger with prefetchedReady := s.prefetchedReady.erase k } := by
  have hledger : s₁.ledger = { s.ledger with prefetchedReady := s₁.prefetchedReady } := by
    rw [h.same]
    rfl
  rcases h.marks with hm | hm
  · exact .inl (by rw [hledger, hm]; rfl)
  · exact .inr (by rw [hledger, hm])

theorem observeRequest_prefetch {request : ScheduleRequest} (h : request.isPrefetch = true)
    (e : ExpertState) (existing : Option TaskId) :
    (observeRequest cfg request e existing s).ledger = s.ledger := by
  unfold observeRequest
  rw [if_pos h]
  split <;> rfl

theorem ledger_coalesce (t : TaskId) (request : ScheduleRequest) (callback : Bool) (s : Scheduler) :
    (coalesce t request callback s).2.ledger = s.ledger := by
  show (putJoined ..).ledger = _
  unfold putJoined
  split <;> rfl

theorem ledgerStep_schedule {a : Action} {request : ScheduleRequest} (ha : a ≠ .expireNext)
    (hq : a.request cfg = some request) (hl : s.lock = none) (callback : Bool) :
    LedgerStep cfg s a (s.answer (schedule cfg request callback)).ledger := by
  have hobserved : ∀ {s₁ s₂ : Scheduler} {e : ExpertState} {existing : Option TaskId},
      s₁ = observeRequest cfg request e existing s → s₂.ledger = s₁.ledger →
      LedgerStep cfg s a s₂.ledger := by
    rintro s₁ s₂ e existing rfl h₂
    rcases (@observed_observeRequest cfg request e existing s).ledger with h | h
    · exact .of (.same ha) (h₂.trans h)
    · exact .of (.unmarks ha hl) (h₂.trans h)
  refine answer_of (P := fun s' => LedgerStep cfg s a s'.ledger) (wp_schedule_cases ?_ ?_ ?_ ?_ ?_ ?_ ?_)
  · exact fun _ => .same ha
  · exact fun _ _ => .same ha
  · rintro s₁ e hs₁ - he hi
    by_cases hp : request.isPrefetch = true
    · refine .of (.marks hq hl he hp hi) ?_
      have hledger : s₁.ledger = s.ledger := hs₁ ▸ observeRequest_prefetch hp e _
      have hmarks : s₁.prefetchedReady = s.prefetchedReady := congrArg Ledger.prefetchedReady hledger
      show ((acceptReady request callback s₁).2.log _).ledger = _
      unfold acceptReady
      rw [if_pos hp, ← hmarks, ← hledger]
      rfl
    · refine hobserved hs₁ ?_
      show ((acceptReady request callback s₁).2.log _).ledger = _
      unfold acceptReady
      rw [if_neg hp]
      rfl
  · exact fun s₁ e t hs₁ _ _ _ _ => hobserved hs₁ rfl
  · exact fun s₁ e t hs₁ _ _ _ _ => hobserved hs₁ (ledger_coalesce t request callback s₁)
  · exact fun s₁ e hs₁ _ _ _ _ _ x => hobserved hs₁ rfl
  · rintro s₁ e hs₁ - - - - - s₂ rfl
    exact hobserved hs₁ rfl

theorem ledgerStep_acknowledge {k : ExpertKey} {location : MemoryTier} (hl : s.lock = none) :
    LedgerStep cfg s (.acknowledgeResidency k location)
      (s.answer (acknowledgeResidency cfg k location)).ledger := by
  refine answer_of (P := fun s' => LedgerStep cfg s (.acknowledgeResidency k location) s'.ledger) ?_
  show wp (read >>= _) _ s
  rw [wp_bind, wp_read]
  show wp (_ >>= _) _ s
  rw [wp_bind, wp_throwIf]
  split
  · exact .same fun h => nomatch h
  · show wp (_ >>= _) _ s
    rw [wp_bind, wp_update]
    show wp (_ >>= _) _ (forget k s)
    rw [wp_bind, wp_update]
    have herased : (if k ∈ (forget k s).prefetchedReady
        then ((forget k s).forgetPrefetched k).count cfg .hit else forget k s).ledger =
          ((forget k s).forgetPrefetched k).ledger := by
      split
      · exact ledger_count ..
      · next hk =>
        unfold forgetPrefetched
        rw [List.erase_of_not_mem hk]
    generalize (if k ∈ (forget k s).prefetchedReady
        then ((forget k s).forgetPrefetched k).count cfg .hit else forget k s) = s₁ at herased
    have hstep : ∀ s₂ : Scheduler, s₂.ledger = s₁.ledger →
        LedgerStep cfg s (.acknowledgeResidency k location) s₂.ledger :=
      fun s₂ h₂ => .of (.acknowledges hl) (h₂.trans herased)
    show wp (_ >>= _) _ s₁
    rw [wp_bind]
    apply wp_reconcile
    · exact fun e _ _ => hstep _ rfl
    · exact fun _ x => hstep _ rfl

theorem ledgerStep_expireNext {layerId : LayerId} {remaining : List ExpertKey} {wasted : Nat}
    (hl : s.lock = some (.expiring layerId remaining wasted)) :
    LedgerStep cfg s .expireNext (s.thread (expire cfg layerId wasted remaining)).ledger := by
  cases remaining with
  | nil =>
    refine .of (.expireEnds hl) ?_
    show { (s.count cfg (.wasting wasted)).ledger with lock := none } = _
    rw [ledger_count]
  | cons k rest =>
    by_cases hk : k.1 < layerId
    · rcases expire_older cfg s rest wasted hk with ⟨e, h⟩ | h
      · rw [h.after]
        exact .expires hl hk
      · obtain ⟨x, hafter⟩ := h.after
        rw [hafter]
        exact .expireRefused hl hk h.refused
    · rw [expire_newer hk]
      exact .expireKeeps hl hk

theorem ledger_onStates {α : Type} (x : States.Code α) : Leaves ledger (onStates x) :=
  leaves_onStates (fun _ _ => rfl) x

theorem ledger_onExpert (x : States.Code Unit) : (s.answer (onExpert x)).ledger = s.ledger :=
  ledger_answer ((ledger_onStates x).bind fun _ => leaves_pure _)

theorem ledger_readyResult (n : RequestId) (accepted : Accepted) (call : ReadyCall) :
    Leaves ledger (readyResult n accepted call) := by
  cases call with
  | looking => exact leaves_update fun _ => rfl
  | looked transfer => exact (ledger_onStates _).bind fun _ => leaves_update fun _ => rfl
  | answering result =>
    refine leaves_update fun s => ?_
    show (setCall n _ (if _ then _ else _)).ledger = _
    split <;> rfl
  | answered result => exact leaves_update fun _ => rfl

theorem step_ledger {a : Action} (hs : Sound cfg s) (h : step cfg a s = some s') :
    LedgerStep cfg s a s'.ledger := by
  have hstep := step_eq h
  obtain ⟨-, hallows, hperform⟩ := hstep
  cases a with
  | registerExpert k location =>
    exact .of (.same fun h => by cases h) (hperform ▸ ledger_onExpert _)
  | schedule request callback =>
    subst hperform
    exact ledgerStep_schedule (a := .schedule request callback) (fun h => by cases h) rfl
      (of_decide_eq_true hallows) callback
  | prefetch prediction callback =>
    subst hperform
    exact ledgerStep_schedule (a := .prefetch prediction callback) (fun h => by cases h) rfl
      (of_decide_eq_true hallows) callback
  | readyResult n =>
    refine .of (.same fun h => by cases h) ?_
    subst hperform
    dsimp only [perform]
    split
    · exact ledger_thread (ledger_readyResult _ _ _)
    · rfl
  | cancel n =>
    refine .of (.same fun h => by cases h) ?_
    subst hperform
    show (s.cancel n).ledger = _
    unfold cancel
    split <;> rfl
  | acquire k => exact .of (.same fun h => by cases h) (hperform ▸ ledger_onExpert _)
  | release k => exact .of (.same fun h => by cases h) (hperform ▸ ledger_onExpert _)
  | expirePrefetchesBefore layerId order =>
    obtain ⟨hl, ho⟩ : s.lock = none ∧ order.isPerm s.prefetchedReady = true := of_decide_eq_true hallows
    subst hperform
    exact .expireBegins hl (List.isPerm_iff.mp ho)
  | expireNext =>
    subst hperform
    dsimp only [perform]
    split
    · next hl => exact ledgerStep_expireNext hl
    · next hl =>
      have hno := hallows
      dsimp only [allows] at hno
      split at hno
      · next hl' => exact absurd hl' (hl _ _ _)
      · cases hno
  | cachedTransfer k => exact .of (.same fun h => by cases h) (hperform ▸ rfl)
  | acknowledgeResidency k location =>
    subst hperform
    exact ledgerStep_acknowledge (of_decide_eq_true hallows)
  | reconcileResidency k location =>
    refine .of (.same fun h => by cases h) ?_
    subst hperform
    refine ledger_answer (leaves_read.bind fun s => ?_)
    exact (leaves_ite _ (ledger_onStates _) (leaves_pure ())).bind fun _ => leaves_pure _
  | shutdown =>
    refine .of (.same fun h => by cases h) ?_
    subst hperform
    show (shutdown s).ledger = _
    unfold shutdown
    split <;> rfl
  | join => exact .of (.same fun h => by cases h) (hperform ▸ rfl)
  | work w outcome => exact ledgerStep_work hs h

/-- an expert is marked once -/
theorem LedgerStep.nodup {a : Action} {l : Ledger} (h : LedgerStep cfg s a l)
    (hs : s.prefetchedReady.Nodup) : l.prefetchedReady.Nodup := by
  cases h
  case unmarks => exact hs.erase _
  case marks => exact hs.insert
  case acknowledges => exact hs.erase _
  case expires => exact hs.erase _
  case bounds => exact hs.insert
  case drops => exact hs.erase _
  case dropRefused => exact hs.erase _
  all_goals exact hs

theorem run_nodup {as : List Action} (h : run cfg as = some s) :
    Sound cfg s ∧ s.prefetchedReady.Nodup := by
  have hkeeps : ∀ s a s', step cfg a s = some s' → Sound cfg s ∧ s.prefetchedReady.Nodup →
      Sound cfg s' ∧ s'.prefetchedReady.Nodup :=
    fun _ _ _ ha hi => ⟨step_sound hi.1 ha, (step_ledger hi.1 ha).nodup hi.2⟩
  exact Runs.run_invariant hkeeps ⟨new_sound, List.nodup_nil⟩ h

end HyperMoE.Scheduler
