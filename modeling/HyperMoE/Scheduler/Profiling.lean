import Mathlib.Data.Fintype.Defs
import HyperMoE.Lib.Image
import HyperMoE.Scheduler.Steps

/-!
# Profiling and behaviour

The same actions, with a profiler and without: the two runs are the same but for the counters, as
long as no active request reaches the block of `schedule` that the profiler's presence guards with
something there for it to change.

* `uncounted`        a state without its counters;
* `Undisturbed`      the guarded block has nothing to change;
* `step_uncounted`   one step with a profiler, seen without the counters, is the step without one;
* `run_uncounted`    the same for runs.
-/

namespace HyperMoE.Scheduler

open Lib Lib.Fallible

variable {cfg : SchedulerConfig} {s : Scheduler}

def uncounted (s : Scheduler) : Scheduler := { s with profiler := {} }

/-- the scheduler constructed without a profiler -/
def unprofiled (cfg : SchedulerConfig) : SchedulerConfig := { cfg with profiled := false }

/-- the block that the profiler guards finds neither a mark to erase nor a prefetch, pending to
another tier, to hand over to an active consumer -/
def Unobserved (request : ScheduleRequest) (s : Scheduler) : Prop :=
  request.isActive = true → s.stopping = false → ∀ e ∈ s.states request.key,
    request.key ∉ s.prefetchedReady ∧
    ∀ t ∈ s.pendingByExpert request.key, (s.tasks t).prefetchRequest = true →
      (s.tasks t).request.destination ≠ request.destination →
      isReadyAt e request.destination = true → (s.tasks t).activeConsumer = true

def Undisturbed (s : Scheduler) : Action → Prop
  | .schedule request _ => Unobserved request s
  | _ => True

instance (request : ScheduleRequest) (s : Scheduler) : Decidable (Unobserved request s) := by
  unfold Unobserved
  infer_instance

instance (s : Scheduler) (a : Action) : Decidable (Undisturbed s a) := by
  apply Action.casesOn (motive := fun a => Decidable (Undisturbed s a)) a <;> intros <;>
    unfold Undisturbed <;> infer_instance

/-! ## the guarded block -/

@[simp] theorem uncounted_count (f : PrefetchCounters → PrefetchCounters) (s : Scheduler) :
    (s.count cfg f).uncounted = s.uncounted := by
  unfold count
  split <;> rfl

@[simp] theorem count_unprofiled (f : PrefetchCounters → PrefetchCounters) (s : Scheduler) :
    s.count (unprofiled cfg) f = s := rfl

theorem forgetPrefetched_of_notMem {k : ExpertKey} (h : k ∉ s.prefetchedReady) :
    s.forgetPrefetched k = s := by
  unfold forgetPrefetched
  rw [List.erase_of_not_mem h]

theorem setTask_same {t : TaskId} {task : Task} (h : s.tasks t = task) : s.setTask t task = s := by
  unfold setTask
  rw [← h, Function.update_eq_self]

/-- what the block changes beside the counters: at most the flag that `coalesce` sets anyway -/
theorem uncounted_observePending {t : TaskId} {ready : Bool} {destination : MemoryTier}
    (h : (s.tasks t).prefetchRequest = true → (s.tasks t).request.destination ≠ destination →
      ready = true → (s.tasks t).activeConsumer = true) :
    (observePending t ready s).uncounted = s.uncounted ∨
    (s.tasks t).request.destination = destination ∧ (observePending t ready s).uncounted =
      s.uncounted.setTask t { s.tasks t with activeConsumer := true } := by
  unfold observePending
  by_cases hp : (s.tasks t).prefetchRequest = true
  · rw [if_pos hp]
    by_cases hr : ready = true
    · rw [if_pos hr]
      by_cases hd : (s.tasks t).request.destination = destination
      · exact .inr ⟨hd, rfl⟩
      · refine .inl ?_
        have hsame : { s.tasks t with activeConsumer := true } = s.tasks t := by rw [← h hp hd hr]
        rw [hsame, setTask_same rfl]
        rfl
    · rw [if_neg hr]
      exact .inl rfl
  · rw [if_neg hp]
    exact .inl rfl

theorem uncounted_observeRequest (cfg : SchedulerConfig) {request : ScheduleRequest} {e : ExpertState}
    (h : Unobserved request s) (hs : s.stopping = false) (he : s.states request.key = some e) :
    (observeRequest cfg request e (s.pendingByExpert request.key) s).uncounted = s.uncounted ∨
    ∃ t, s.pendingByExpert request.key = some t ∧ request.isActive = true ∧
      (s.tasks t).request.destination = request.destination ∧
      (observeRequest cfg request e (s.pendingByExpert request.key) s).uncounted =
        s.uncounted.setTask t { s.tasks t with activeConsumer := true } := by
  unfold observeRequest
  split
  · split
    · exact .inl rfl
    · split
      · next ha =>
        obtain ⟨hm, hp⟩ := h ha hs e he
        unfold observeActive
        rw [forgetPrefetched_of_notMem hm, if_neg fun hc => hm hc.1]
        cases ht : s.pendingByExpert request.key with
        | none => exact .inl rfl
        | some t =>
          exact (uncounted_observePending (hp t ht)).imp_right fun h => ⟨t, rfl, ha, h.1, h.2⟩
      · exact .inl rfl
  · exact .inl rfl

theorem putJoined_setTask (t : TaskId) (task task' : Task) (request : ScheduleRequest) :
    putJoined t task request (s.setTask t task') = putJoined t task request s := by
  unfold putJoined setTask
  split <;> rw [Function.update_idem]

/-- an active request that joins the task sets the flag whether or not it was set before -/
theorem coalesce_setTask {t : TaskId} {request : ScheduleRequest} {callback : Bool}
    (ha : request.isActive = true) :
    coalesce t request callback (s.setTask t { s.tasks t with activeConsumer := true }) =
      coalesce t request callback s := by
  have hj : joined ((s.setTask t { s.tasks t with activeConsumer := true }).tasks t) s.nextRequest
      request callback = joined (s.tasks t) s.nextRequest request callback := by
    rw [setTask_tasks, Function.update_self]
    unfold joined
    rw [ha, Bool.or_true, Bool.or_true]
  unfold coalesce
  refine Prod.ext rfl ?_
  show putJoined t (joined _ s.nextRequest request callback) request
    ((s.accept request (.task t) callback).setTask t _) = _
  rw [hj, putJoined_setTask]

/-! ## the operations -/

theorem maps_states {α : Type} (x : States.Code α) :
    Maps uncounted (onStates x) (onStates x) s := Maps.zoom x rfl fun _ => rfl

theorem maps_beginTransition (request : ScheduleRequest) :
    Maps uncounted (beginTransition request) (beginTransition request) s := by
  unfold beginTransition
  split
  · exact maps_states _
  · exact Maps.bind (maps_states _) fun _ _ _ => maps_states _

theorem uncounted_putJoined (t : TaskId) (task : Task) (request : ScheduleRequest) :
    putJoined t task request s.uncounted = (putJoined t task request s).uncounted := by
  unfold putJoined
  split <;> rfl

theorem maps_submit (request : ScheduleRequest) (callback : Bool) (existing : Option TaskId) :
    Maps uncounted (submit request callback existing) (submit request callback existing) s := by
  cases existing with
  | some t =>
    refine Maps.read (Maps.guard Iff.rfl _ fun _ => Maps.updateGet ?_)
    exact Prod.ext rfl (uncounted_putJoined (s := s.accept request (.task t) callback) ..)
  | none =>
    exact Maps.bind (maps_beginTransition request) fun _ _ _ => Maps.updateGet rfl

/-- what follows the guarded block, from its two states -/
theorem maps_answer (request : ScheduleRequest) (callback : Bool) (e : ExpertState)
    (existing : Option TaskId) :
    Maps uncounted (if immediatelyReady request e existing
        then updateGet (acceptReady request callback) else submit request callback existing)
      (if immediatelyReady request e existing
        then updateGet (acceptReady request callback) else submit request callback existing) s := by
  refine Maps.ite Iff.rfl (Maps.updateGet (Prod.ext rfl ?_)) (maps_submit ..)
  show Scheduler.setCall _ _ (Scheduler.accept _ _ _ (if _ then _ else _)) =
    Scheduler.uncounted (Scheduler.setCall _ _ (Scheduler.accept _ _ _ (if _ then _ else _)))
  split <;> rfl

theorem exec_submit_some {request : ScheduleRequest} {callback : Bool} {t : TaskId}
    (hd : (s.tasks t).request.destination = request.destination) :
    (submit request callback (some t)).exec s =
      (.ok (coalesce t request callback s).1, (coalesce t request callback s).2) := by
  show Fallible.exec (read >>= _) s = _
  rw [exec_bind]
  show Fallible.exec (throwIf _ _ >>= _) s = _
  unfold throwIf
  rw [if_neg (not_not.mpr hd)]
  rfl

theorem snapshot_ok {k : ExpertKey} {e : ExpertState} {s' : Scheduler}
    (h : (onStates (States.snapshot k)).exec s = (.ok e, s')) : s.states k = some e ∧ s' = s := by
  have hw : wp (onStates (States.snapshot k)) (fun r t => r = .ok e → s.states k = some e ∧ t = s)
      s := by
    rw [wp_snapshot]
    cases s.states k with
    | none => exact fun hr => by cases hr
    | some e' => exact fun hr => ⟨congrArg some (Except.ok.inj hr), rfl⟩
  rw [wp_def, h] at hw
  exact hw rfl

theorem maps_schedule {request : ScheduleRequest} {callback : Bool} (h : Unobserved request s) :
    Maps uncounted (schedule cfg request callback) (schedule (unprofiled cfg) request callback)
      s := by
  refine Maps.read (Maps.guard Iff.rfl _ fun hs => ?_)
  refine Maps.bind (maps_states _) fun e s₀ he => ?_
  obtain ⟨he, rfl⟩ := snapshot_ok he
  have hs' : s₀.stopping = false := by simpa using hs
  refine Maps.update_bind.mpr ?_
  show Fallible.exec (if immediatelyReady request e (s₀.pendingByExpert request.key) = true
    then updateGet (acceptReady request callback)
    else submit request callback (s₀.pendingByExpert request.key)) s₀.uncounted = _
  rcases uncounted_observeRequest cfg h hs' he with hu | ⟨t, ht, ha, hd, hu⟩
  · -- the block changes the counters only
    have hm := maps_answer request callback e (s₀.pendingByExpert request.key)
      (s := observeRequest cfg request e (s₀.pendingByExpert request.key) s₀)
    unfold Maps at hm
    rw [hu] at hm
    exact hm
  · -- the block sets the flag of the task that the request joins
    have hn : ¬ immediatelyReady request e (s₀.pendingByExpert request.key) = true := by
      unfold immediatelyReady
      simp [ht]
    have hm := maps_submit (s := observeRequest cfg request e (s₀.pendingByExpert request.key) s₀)
      request callback (some t)
    unfold Maps at hm
    have hd' : ((s₀.uncounted.setTask t { s₀.tasks t with activeConsumer := true }).tasks
        t).request.destination = request.destination := by
      rw [setTask_tasks, Function.update_self]
      exact hd
    have hc : coalesce t request callback
        (s₀.uncounted.setTask t { s₀.tasks t with activeConsumer := true }) =
        coalesce t request callback s₀.uncounted := coalesce_setTask (s := s₀.uncounted) ha
    rw [hu, exec_submit_some hd', hc] at hm
    rw [if_neg hn, ht]
    rw [ht] at hm
    exact (exec_submit_some (s := s₀.uncounted) hd).trans hm

theorem maps_prefetch {prediction : PredictedExpertRequest} {callback : Bool} :
    Maps uncounted (prefetch cfg prediction callback) (prefetch (unprofiled cfg) prediction callback)
      s := maps_schedule fun h => absurd h (by simp [prefetchRequest, ScheduleRequest.isActive])

theorem maps_readyResult (n : RequestId) (accepted : Accepted) (call : ReadyCall) :
    Maps uncounted (readyResult n accepted call) (readyResult n accepted call) s := by
  cases call with
  | looking => exact Maps.update rfl
  | looked transfer => exact Maps.bind (maps_states _) fun _ _ _ => Maps.update rfl
  | answering result =>
    refine Maps.update ?_
    split <;> rfl
  | answered result => exact Maps.update rfl

theorem maps_expire (layerId : LayerId) (wasted : Nat) (remaining : List ExpertKey) :
    Maps uncounted (expire cfg layerId wasted remaining)
      (expire (unprofiled cfg) layerId wasted remaining) s := by
  cases remaining with
  | nil =>
    refine Maps.update ?_
    rw [count_unprofiled]
    unfold count
    split <;> rfl
  | cons k rest =>
    refine Maps.tryCatch ?_ fun _ _ => Maps.update rfl
    unfold expireNext
    refine Maps.ite Iff.rfl ?_ (Maps.update rfl)
    refine Maps.bind (Maps.update rfl) fun _ _ _ => Maps.bind (maps_states _) fun _ _ _ => ?_
    exact Maps.bind (Maps.update rfl) fun _ _ _ => Maps.update rfl

theorem maps_cachedTransfer (k : ExpertKey) :
    Maps uncounted (cachedTransfer k) (cachedTransfer k) s := Maps.read (Maps.pure _)

theorem maps_acknowledgeResidency (k : ExpertKey) (location : MemoryTier) :
    Maps uncounted (acknowledgeResidency cfg k location)
      (acknowledgeResidency (unprofiled cfg) k location) s := by
  refine Maps.read (Maps.guard Iff.rfl _ fun _ => Maps.bind (Maps.update rfl) fun _ s' _ => ?_)
  refine Maps.bind (Maps.update ?_) fun _ _ _ => Maps.bind (maps_states _) fun _ _ _ => Maps.pure _
  show (if k ∈ s'.prefetchedReady then _ else _) = Scheduler.uncounted (if _ then _ else _)
  split
  · rw [count_unprofiled, uncounted_count]
    rfl
  · rfl

theorem maps_reconcileResidency (k : ExpertKey) (location : MemoryTier) :
    Maps uncounted (reconcileResidency k location) (reconcileResidency k location) s :=
  Maps.read (Maps.bind (Maps.ite Iff.rfl (maps_states _) (Maps.pure _)) fun _ _ _ => Maps.pure _)

theorem maps_guarded {leave : Scheduler → Scheduler} {w : WorkerId} {t : TaskId} {x y : Code Unit}
    (hl : ∀ s : Scheduler, leave s.uncounted = (leave s).uncounted) (h : Maps uncounted x y s) :
    Maps uncounted (guarded leave w t x) (guarded leave w t y) s := by
  refine Maps.tryCatch h fun e s' => Maps.update ?_
  rw [hl]
  rfl

theorem maps_drop (t : TaskId) (c : ExpertKey) :
    Maps uncounted (drop cfg t c) (drop (unprofiled cfg) t c) s := by
  refine Maps.bind (Maps.update rfl) fun _ _ _ => Maps.bind (Maps.update rfl) fun _ _ _ => ?_
  refine Maps.read (Maps.bind (Maps.ite Iff.rfl (maps_states _) (Maps.pure _)) fun _ _ _ => ?_)
  refine Maps.update ?_
  rw [count_unprofiled, uncounted_count]

theorem maps_trim (w : WorkerId) (t : TaskId) (r : TransferResult) (cachedBytes : Nat)
    (c : ExpertKey) (rest : List ExpertKey) :
    Maps uncounted (trim cfg w t r cachedBytes c rest)
      (trim (unprofiled cfg) w t r cachedBytes c rest) s := by
  refine Maps.read ?_
  rw [show s.uncounted.residentTransfers = s.residentTransfers from rfl]
  cases s.residentTransfers c with
  | none => exact Maps.update rfl
  | some found =>
    refine Maps.ite Iff.rfl (Maps.update rfl) ?_
    exact Maps.bind (maps_drop t c) fun _ _ _ => Maps.update rfl

theorem maps_work (w : WorkerId) (outcome : TransferOutcome) (pc : WorkerPc) :
    Maps uncounted (work cfg w outcome pc) (work (unprofiled cfg) w outcome pc) s := by
  cases pc with
  | waiting =>
    refine Maps.update ?_
    show pop w s.uncounted = (pop w s).uncounted
    unfold pop
    rw [apply_ite uncounted]
    dsimp only [uncounted]
    cases popLive s.tasks s.queue <;> rfl
  | popped t =>
    refine Maps.read (Maps.ite Iff.rfl (Maps.update rfl) ?_)
    exact Maps.bind (Maps.ite Iff.rfl (Maps.pure _) (maps_states _)) fun _ _ _ => Maps.update rfl
  | loading t =>
    refine Maps.update ?_
    cases outcome with
    | error e => rfl
    | ok r =>
      show (if _ then _ else _) = Scheduler.uncounted (if _ then _ else _)
      split <;> rfl
  | transferred t r =>
    refine maps_guarded (fun _ => rfl) (Maps.read ?_)
    exact Maps.bind (maps_states _) fun _ _ _ => Maps.update rfl
  | ready t r =>
    refine Maps.update ?_
    show record w t r s.uncounted = (record w t r s).uncounted
    unfold record
    rw [apply_ite uncounted]
    rfl
  | trimming t r cachedBytes candidates =>
    cases candidates with
    | nil => exact Maps.update rfl
    | cons c rest => exact maps_guarded (fun _ => rfl) (maps_trim ..)
  | recorded t r =>
    refine maps_guarded (fun _ => rfl) (Maps.read ?_)
    exact Maps.bind (maps_states _) fun _ _ _ => Maps.update rfl
  | failing t result => exact Maps.read (Maps.bind (maps_states _) fun _ _ _ => Maps.update rfl)
  | failed t result => exact Maps.read (Maps.bind (maps_states _) fun _ _ _ => Maps.update rfl)
  | completing t result =>
    refine Maps.update ?_
    show complete w t result s.uncounted = (complete w t result s).uncounted
    unfold complete
    rw [apply_ite uncounted]
    rfl
  | notifying t result callbacks =>
    refine Maps.update ?_
    cases callbacks <;> rfl
  | exited => exact Maps.pure _

/-! ## steps and runs -/

theorem answer_uncounted {x y : Code Reply} (h : Maps uncounted x y s) :
    s.uncounted.answer y = (s.answer x).uncounted := by
  unfold Maps at h
  unfold answer
  rw [h]
  cases hx : x.exec s with
  | mk r s' => cases r <;> rfl

theorem thread_uncounted {x y : Code Unit} (h : Maps uncounted x y s) :
    s.uncounted.thread y = (s.thread x).uncounted := by
  unfold Maps at h
  unfold thread
  rw [h]
  cases hx : x.exec s with
  | mk r s' => cases r <;> rfl

theorem maps_onExpert (x : States.Code Unit) : Maps uncounted (onExpert x) (onExpert x) s :=
  Maps.bind (maps_states x) fun _ _ _ => Maps.pure _

theorem perform_uncounted {a : Action} (h : Undisturbed s a) :
    s.uncounted.perform (unprofiled cfg) a = (s.perform cfg a).uncounted := by
  cases a with
  | registerExpert k location => exact answer_uncounted (maps_onExpert _)
  | schedule request callback => exact answer_uncounted (maps_schedule h)
  | prefetch prediction callback => exact answer_uncounted maps_prefetch
  | readyResult n =>
    dsimp only [perform, uncounted]
    cases s.calls n with
    | none => rfl
    | some call =>
      cases s.requests n with
      | none => rfl
      | some accepted => exact thread_uncounted (maps_readyResult n accepted call)
  | cancel n =>
    dsimp only [perform, cancel, uncounted]
    split <;> rfl
  | acquire k => exact answer_uncounted (maps_onExpert _)
  | release k => exact answer_uncounted (maps_onExpert _)
  | expirePrefetchesBefore layerId order => rfl
  | expireNext =>
    dsimp only [perform, uncounted]
    split
    · exact thread_uncounted (maps_expire ..)
    · rfl
  | cachedTransfer k => exact answer_uncounted (maps_cachedTransfer k)
  | acknowledgeResidency k location => exact answer_uncounted (maps_acknowledgeResidency k location)
  | reconcileResidency k location => exact answer_uncounted (maps_reconcileResidency k location)
  | shutdown =>
    show (if s.stopping then _ else _) = Scheduler.uncounted (if s.stopping then _ else _)
    split <;> rfl
  | join => rfl
  | work w outcome => exact thread_uncounted (maps_work w outcome (s.workers w))

theorem allows_uncounted (a : Action) : s.uncounted.allows (unprofiled cfg) a = s.allows cfg a := by
  cases a <;> rfl

theorem step_uncounted {a : Action} (h : ∀ s', step cfg a s = some s' → Undisturbed s a) :
    (step cfg a s).map uncounted = step (unprofiled cfg) a s.uncounted := by
  unfold step at h ⊢
  rw [allows_uncounted]
  by_cases hc : s.terminated = false ∧ s.allows cfg a = true
  · rw [if_pos hc] at h ⊢
    rw [if_pos (show s.uncounted.terminated = false ∧ s.allows cfg a = true from hc),
      perform_uncounted (h _ rfl)]
    rfl
  · rw [if_neg hc, if_neg (show ¬ (s.uncounted.terminated = false ∧ s.allows cfg a = true) from hc)]
    rfl

theorem run_uncounted (cfg : SchedulerConfig) (as : List Action)
    (h : Runs.Along (step cfg) (fun s a _ => Undisturbed s a) {} as) :
    (run cfg as).map uncounted = run (unprofiled cfg) as := by
  have hstep : ∀ s a, (∀ s', step cfg a s = some s' → Undisturbed s a) →
      (step cfg a s).map uncounted = step (unprofiled cfg) a s.uncounted :=
    fun _ _ hs => step_uncounted hs
  exact Runs.run_map hstep as {} h

/-! ## a run in which the profiler matters -/

def observedConfig : SchedulerConfig where
  profiled := true
  workerCount := 1
  prefetchDestination := .Ram
  hasWorker := Nat.one_ne_zero
  validPrefetch := SchedulerConfig.validPrefetch_ram

/-- expert 1 of layer 0, read into RAM -/
def sampleTransfer : TransferResult where
  status := .Completed
  record := ⟨0, 1, 0, 2⟩
  buffer := some ⟨7, [1, 2], true⟩
  destination := .Ram
  nvmeBytes := 2

/-- worker 0 takes the one task through all its stages, with `rounds` rounds of the trimming loop -/
def workThrough (r : TransferResult) (rounds callbacks : Nat) : List Action :=
  .work 0 (.error .outOfFuel) :: .work 0 (.error .outOfFuel) :: .work 0 (.ok r) ::
    List.replicate (6 + rounds + callbacks) (.work 0 (.error .outOfFuel))

def prefetchThenDemand : List Action :=
  .registerExpert (0, 1) .Nvme :: .prefetch ⟨0, 1, 1, 1⟩ false ::
    workThrough sampleTransfer 1 0 ++
    .schedule { layerId := 0, expertId := 1, destination := .Ram } false ::
    List.replicate 4 (.readyResult 1)

/-- a prefetch, an active request that is answered from it, and the next layer: without a profiler
the expert is dropped and reset to NVMe under its consumer's eyes -/
theorem not_uncounted_after_active_hit :
    (run observedConfig prefetchThenDemand).map uncounted ≠
      run (unprofiled observedConfig) prefetchThenDemand ∧
    (run observedConfig (prefetchThenDemand ++ [.expirePrefetchesBefore 1 [], .expireNext])).map
      (fun s => (s.residentTransfers (0, 1), (s.states (0, 1)).map (·.currentLocation))) =
      some (some sampleTransfer, some .Ram) ∧
    (run (unprofiled observedConfig)
      (prefetchThenDemand ++ [.expirePrefetchesBefore 1 [(0, 1)], .expireNext, .expireNext])).map
      (fun s => (s.residentTransfers (0, 1), (s.states (0, 1)).map (·.currentLocation))) =
      some (none, some .Nvme) := by
  refine ⟨fun h => ?_, by decide, by decide⟩
  have h' : ((run observedConfig prefetchThenDemand).map uncounted).map prefetchedReady =
      (run (unprofiled observedConfig) prefetchThenDemand).map prefetchedReady := by rw [h]
  exact absurd h' (by decide)

def demandRun : List Action :=
  .registerExpert (0, 1) .Nvme ::
    .schedule { layerId := 0, expertId := 1, destination := .Ram } true ::
    workThrough sampleTransfer 0 0

theorem run_uncounted_sample :
    (run observedConfig demandRun).isSome = true ∧
    (run observedConfig demandRun).map uncounted = run (unprofiled observedConfig) demandRun :=
  ⟨by decide, run_uncounted _ _ (by decide)⟩

end HyperMoE.Scheduler
