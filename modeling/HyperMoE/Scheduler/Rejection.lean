import HyperMoE.Scheduler.Dispatch

/-!
# A request that is refused

`schedule` observes an active request before it knows whether it can accept it.  So a refused call
leaves everything as it was, unless the refusal is a late one and the request was noted: a mark was
erased, or a pending prefetch got a consumer that never comes.

* `Unaffected`            what a refused call must not change;
* `refusedLate`, `noted`  the condition;
* `KeepsRefused`          the property of a step;
* `run_refused_iff`       the steps of a run have the property exactly when they meet the condition.
-/

namespace HyperMoE.Scheduler

open Lib Lib.Fallible

variable {cfg : SchedulerConfig} {s s' : Scheduler}

/-! ## the property and the condition -/

structure Unaffected (s s' : Scheduler) : Prop where
  states : s'.states = s.states
  queue : s'.queue = s.queue
  tasks : s'.tasks = s.tasks
  cancelled : s'.cancelled = s.cancelled
  pendingByExpert : s'.pendingByExpert = s.pendingByExpert
  residentTransfers : s'.residentTransfers = s.residentTransfers
  prefetchedReady : s'.prefetchedReady = s.prefetchedReady

/-- a call that throws leaves everything as it was -/
def KeepsRefused (cfg : SchedulerConfig) (s : Scheduler) (a : Action) (s' : Scheduler) : Prop :=
  (a.request cfg).isSome = true → Threw s s' → Unaffected s s'

/-- the expert is known, and another target is pending, or its record does not allow the request -/
def refusedLate (s : Scheduler) (request : ScheduleRequest) : Prop :=
  s.stopping = false ∧ ∃ e, s.states request.key = some e ∧
    match s.pendingByExpert request.key with
    | some t => (s.tasks t).request.destination ≠ request.destination
    | none => immediatelyReady request e none = false ∧ ¬ canBegin request e

/-- the profiler's bookkeeping finds something: the expert is marked as prefetched, or its prefetch is
pending without a consumer, and the expert is ready at the tier that the request asks for -/
def noted (cfg : SchedulerConfig) (s : Scheduler) (request : ScheduleRequest) : Prop :=
  cfg.profiled = true ∧ request.isActive = true ∧ (request.key ∈ s.prefetchedReady ∨
    ∃ e t, s.states request.key = some e ∧ s.pendingByExpert request.key = some t ∧
      isReadyAt e request.destination = true ∧
      (s.tasks t).prefetchRequest = true ∧ (s.tasks t).activeConsumer = false)

/-- the request of the step is not noted and then refused -/
def Unnoted (cfg : SchedulerConfig) (s : Scheduler) (a : Action) : Prop :=
  ∀ request, a.request cfg = some request → ¬ (refusedLate s request ∧ noted cfg s request)

/-! ## observing a request -/

theorem Unaffected.refl (s : Scheduler) : Unaffected s s := ⟨rfl, rfl, rfl, rfl, rfl, rfl, rfl⟩

theorem observePending_prefetchedReady (t : TaskId) (ready : Bool) (s : Scheduler) :
    (observePending t ready s).prefetchedReady = s.prefetchedReady := by
  unfold observePending
  split
  · split <;> rfl
  · rfl

theorem observeActive_prefetchedReady (request : ScheduleRequest) (e : ExpertState)
    (existing : Option TaskId) (s : Scheduler) :
    (observeActive request e existing s).prefetchedReady = s.prefetchedReady.erase request.key := by
  show (if _ then _ else _ : Scheduler).prefetchedReady = _
  split
  · rfl
  · cases existing with
    | none => rfl
    | some t => exact observePending_prefetchedReady ..

theorem unaffected_observePending_iff {t : TaskId} {ready : Bool} :
    Unaffected s (observePending t ready s) ↔
      ¬ (ready = true ∧ (s.tasks t).prefetchRequest = true ∧ (s.tasks t).activeConsumer = false) := by
  unfold observePending
  split
  · next hp =>
    split
    · next hr =>
      constructor
      · rintro h ⟨-, -, hc⟩
        have htask := congrFun h.tasks t
        replace htask : Function.update s.tasks t { s.tasks t with activeConsumer := true } t =
          s.tasks t := htask
        rw [Function.update_self] at htask
        have hconsumer := congrArg Task.activeConsumer htask
        exact absurd (hconsumer.trans hc) (by simp)
      · intro h
        have hc : (s.tasks t).activeConsumer = true := by
          by_contra hc
          exact h ⟨hr, hp, by simpa using hc⟩
        have htask : { s.tasks t with activeConsumer := true } = s.tasks t := by rw [← hc]
        refine ⟨rfl, rfl, ?_, rfl, rfl, rfl, rfl⟩
        show Function.update s.tasks t { s.tasks t with activeConsumer := true } = s.tasks
        rw [htask]
        exact Function.update_eq_self ..
    · next hr => exact iff_of_true ⟨rfl, rfl, rfl, rfl, rfl, rfl, rfl⟩ fun h => hr h.1
  · next hp => exact iff_of_true (.refl s) fun h => hp h.2.1

theorem unaffected_observeRequest_iff {request : ScheduleRequest} {e : ExpertState}
    (he : s.states request.key = some e) :
    Unaffected s (observeRequest cfg request e (s.pendingByExpert request.key) s) ↔
      ¬ noted cfg s request := by
  unfold observeRequest
  split
  · next hprofiled =>
    split
    · next hp =>
      refine iff_of_true ⟨rfl, rfl, rfl, rfl, rfl, rfl, rfl⟩ ?_
      rintro ⟨-, ha, -⟩
      have hprefetch : request.priority = .PredictedNextLayer := of_decide_eq_true hp
      rw [ScheduleRequest.isActive, hprefetch] at ha
      cases ha
    · split
      · next ha =>
        by_cases hmark : request.key ∈ s.prefetchedReady
        · refine iff_of_false (fun h => ?_) fun h => h ⟨hprofiled, ha, .inl hmark⟩
          have hlength := congrArg List.length h.prefetchedReady
          rw [observeActive_prefetchedReady, List.length_erase_of_mem hmark] at hlength
          have := List.length_pos_of_mem hmark
          omega
        · have herased : forgetPrefetched request.key s = s := by
            unfold forgetPrefetched
            rw [List.erase_of_not_mem hmark]
          have hsame : observeActive request e (s.pendingByExpert request.key) s =
              (s.pendingByExpert request.key).elim s fun t =>
                observePending t (isReadyAt e request.destination) s := by
            show (if _ then _ else _) = _
            rw [if_neg fun h => hmark h.1, herased]
          rw [hsame]
          cases hp : s.pendingByExpert request.key with
          | none =>
            refine iff_of_true (.refl s) ?_
            rintro ⟨-, -, hm | ⟨_, t, -, ht, -⟩⟩
            · exact hmark hm
            · exact nomatch hp.symm.trans ht
          | some t =>
            refine unaffected_observePending_iff.trans (not_congr ?_)
            constructor
            · rintro ⟨hr, hpre, hc⟩
              exact ⟨hprofiled, ha, .inr ⟨e, t, he, hp, hr, hpre, hc⟩⟩
            · rintro ⟨-, -, hm | ⟨e', t', he', ht, hr, hpre, hc⟩⟩
              · exact absurd hm hmark
              · obtain rfl := Option.some.inj (he.symm.trans he')
                obtain rfl := Option.some.inj (hp.symm.trans ht)
                exact ⟨hr, hpre, hc⟩
      · next ha => exact iff_of_true (.refl s) fun h => ha h.2.1
  · next hprofiled => exact iff_of_true (.refl s) fun h => hprofiled h.1

/-! ## the calls -/

theorem not_threw (reply : Reply) {s₁ : Scheduler} : ¬ Threw s (s₁.log (.replied reply)) := by
  rintro ⟨x, h⟩
  exact nomatch (List.cons.inj h).1

/-- a refused call is as harmless as its observation -/
theorem refused_iff {P : Prop} {s₁ : Scheduler} {x : Exn} {request : ScheduleRequest}
    (ho : Observed request.key s s₁) (h : Unaffected s s₁ ↔ ¬ P) :
    (Threw s (s₁.log (.threw x)) → Unaffected s (s₁.log (.threw x))) ↔ ¬ P := by
  have hlog : Unaffected s (s₁.log (.threw x)) ↔ Unaffected s s₁ :=
    ⟨fun h => ⟨h.1, h.2, h.3, h.4, h.5, h.6, h.7⟩, fun h => ⟨h.1, h.2, h.3, h.4, h.5, h.6, h.7⟩⟩
  have hthrew : Threw s (s₁.log (.threw x)) := by
    refine ⟨x, ?_⟩
    show _ :: s₁.history = _
    rw [ho.same]
  rw [hlog, ← h]
  exact ⟨fun h' => h' hthrew, fun h' _ => h'⟩

theorem schedule_refused_iff (request : ScheduleRequest) (callback : Bool) :
    (Threw s (s.answer (schedule cfg request callback)) →
      Unaffected s (s.answer (schedule cfg request callback))) ↔
      ¬ (refusedLate s request ∧ noted cfg s request) := by
  refine answer_of (P := fun s' => (Threw s s' → Unaffected s s') ↔ _) (wp_schedule_cases ?_ ?_ ?_ ?_ ?_ ?_ ?_)
  · intro hstop
    refine refused_iff (.refl request.key s) (iff_of_true (.refl s) ?_)
    rintro ⟨⟨hs, -⟩, -⟩
    exact nomatch hs.symm.trans hstop
  · intro _ hunknown
    refine refused_iff (.refl request.key s) (iff_of_true (.refl s) ?_)
    rintro ⟨⟨-, e, he, -⟩, -⟩
    exact nomatch hunknown.symm.trans he
  · rintro s₁ e - - he hready
    refine iff_of_true (fun h => absurd h (not_threw _)) ?_
    rintro ⟨⟨-, e', he', hlate⟩, -⟩
    obtain rfl := Option.some.inj (he.symm.trans he')
    cases hp : s.pendingByExpert request.key with
    | none =>
      rw [hp] at hlate hready
      exact nomatch hready.symm.trans hlate.1
    | some t =>
      rw [hp] at hready
      unfold immediatelyReady at hready
      simp at hready
  · rintro s₁ e t rfl hs he hp hother
    refine refused_iff (observed_observeRequest ..) ((unaffected_observeRequest_iff he).trans ?_)
    refine not_congr ⟨fun hn => ⟨⟨hs, e, he, ?_⟩, hn⟩, fun h => h.2⟩
    rw [hp]
    exact hother
  · rintro s₁ e t - - he hp hsame
    refine iff_of_true (fun h => absurd h (not_threw _)) ?_
    rintro ⟨⟨-, _, -, hlate⟩, -⟩
    rw [hp] at hlate
    exact hlate hsame
  · rintro s₁ e hs₁ hs he hp hi hc x
    rw [← hp] at hs₁
    subst hs₁
    refine refused_iff (observed_observeRequest ..) ((unaffected_observeRequest_iff he).trans ?_)
    refine not_congr ⟨fun hn => ⟨⟨hs, e, he, ?_⟩, hn⟩, fun h => h.2⟩
    rw [hp]
    exact ⟨hi, hc⟩
  · rintro s₁ e - - he hp hi hc s₂ -
    refine iff_of_true (fun h => absurd h (not_threw _)) ?_
    rintro ⟨⟨-, e', he', hlate⟩, -⟩
    obtain rfl := Option.some.inj (he.symm.trans he')
    rw [hp] at hlate
    exact hlate.2 hc

theorem step_refused_iff {a : Action} (h : step cfg a s = some s') :
    KeepsRefused cfg s a s' ↔ Unnoted cfg s a := by
  obtain ⟨-, -, rfl⟩ := step_eq h
  have hcall : ∀ request callback, s.perform cfg a = s.answer (schedule cfg request callback) →
      a.request cfg = some request → (KeepsRefused cfg s a (s.perform cfg a) ↔ Unnoted cfg s a) := by
    intro request callback hperform hrequest
    have hiff := @schedule_refused_iff cfg s request callback
    rw [← hperform] at hiff
    constructor
    · intro h q hq
      obtain rfl := Option.some.inj (hrequest.symm.trans hq)
      exact hiff.mp (h (by rw [hrequest]; rfl))
    · intro h _
      exact hiff.mpr (h request hrequest)
  cases a
  case schedule request callback => exact hcall request callback rfl rfl
  case prefetch prediction callback => exact hcall (prefetchRequest cfg prediction) callback rfl rfl
  all_goals exact iff_of_true (fun h => nomatch h) fun _ h => nomatch h

/-! ## runs -/

theorem run_refused_iff (cfg : SchedulerConfig) (as : List Action) :
    Runs.Along (step cfg) (KeepsRefused cfg) {} as ↔
      Runs.Along (step cfg) (fun s a _ => Unnoted cfg s a) {} as := by
  have hstep : ∀ s a s', step cfg a s = some s' →
      (KeepsRefused cfg s a s' ↔ Unnoted cfg s a) := fun _ _ _ h => step_refused_iff h
  exact Runs.along_congr hstep as {}

def profiledScheduler : SchedulerConfig where
  profiled := true
  prefetchDestination := .Ram
  hasWorker := SchedulerConfig.hasWorker_two
  validPrefetch := SchedulerConfig.validPrefetch_ram

/-- a prefetch finds its expert in RAM, and a user takes the expert -/
def prefetchedInUse : List Action :=
  .registerExpert (0, 1) .Ram :: .prefetch ⟨0, 1, 1, 1⟩ false ::
    List.replicate 4 (.readyResult 0) ++ [.acquire (0, 1)]

/-- a request for another tier is refused, and has erased the mark -/
theorem not_keepsRefused_in_use :
    ¬ ∀ as, Runs.Along (step profiledScheduler) (KeepsRefused profiledScheduler) {} as := by
  let demand : Action := .schedule { expertId := 1, destination := .Vram } false
  have hrun : (run profiledScheduler prefetchedInUse).any (fun s =>
      (step profiledScheduler demand s).any fun s' => s.prefetchedReady = [(0, 1)] ∧
        s'.prefetchedReady = [] ∧ s'.history = .threw (.logicError
          "expert cannot be requested during its current transition") :: s.history) = true := by
    decide +kernel
  intro h
  obtain ⟨s, hs, hrun⟩ := Option.any_eq_true _ _ |>.mp hrun
  obtain ⟨s', hs', hrun⟩ := Option.any_eq_true _ _ |>.mp hrun
  obtain ⟨hbefore, hafter, hthrew⟩ := of_decide_eq_true hrun
  have hkeeps := Runs.along_last (h (prefetchedInUse ++ [demand])) hs hs'
  have hsame := (hkeeps rfl ⟨_, hthrew⟩).prefetchedReady
  rw [hbefore, hafter] at hsame
  exact nomatch hsame

end HyperMoE.Scheduler
