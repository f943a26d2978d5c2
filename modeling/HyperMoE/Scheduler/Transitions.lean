import HyperMoE.Scheduler.Completion

/-!
# The transitions of a worker

`markLoading` is called outside of the `try` block of `workerLoop`: if the state machine refused it,
the exception would leave the worker's thread.

* `Finds`             the record of an expert is in a state;
* `Succeeds`          a call of the state machine does not throw;
* `WorkersProceed`    what a worker finds when it gets to one of its transitions;
* `run_proceeds`      in every reachable state.
-/

namespace HyperMoE.Scheduler

open Lib Lib.Fallible

variable {cfg : SchedulerConfig} {s : Scheduler}

/-- the record of the expert is in the given state -/
def Finds (s : Scheduler) (k : ExpertKey) (state : ExpertLifecycleState) : Prop :=
  ∃ e, s.states k = some e ∧ e.state = state

/-- the call does not throw -/
def Succeeds (x : States.Code Unit) (states : States) : Prop := (x.exec states).1 = .ok ()

structure WorkersProceed (s : Scheduler) : Prop where
  /-- no exception has left a thread -/
  alive : s.terminated = false
  queued : ∀ w t, s.workers w = .popped t → (s.tasks t).request.eviction = false →
    Finds s (s.tasks t).key .Queued
  loading : ∀ w t r, s.workers w = .transferred t r → (s.tasks t).request.eviction = false →
    Finds s (s.tasks t).key .Loading
  evicting : ∀ w t r, s.workers w = .transferred t r → (s.tasks t).request.eviction = true →
    Finds s (s.tasks t).key .Evicting
  markLoading : ∀ w t, s.workers w = .popped t → (s.tasks t).request.eviction = false →
    Succeeds (States.markLoading (s.tasks t).key) s.states
  markReady : ∀ w t r, s.workers w = .transferred t r →
    Succeeds (States.markReady (s.tasks t).key (s.tasks t).request.destination) s.states
  /-- the step outside of the `try` block, as a whole -/
  launch : ∀ w t, s.workers w = .popped t → ((launch w t).exec s).1 = .ok ()

theorem succeeds_transition {k : ExpertKey} {allowed : ExpertLifecycleState → Bool} {what : String}
    {change : ExpertState → ExpertState} {states : States} {e : ExpertState}
    (he : states k = some e) (ha : allowed e.state = true) :
    Succeeds (States.transition k allowed what change) states := by
  show wp (States.transition k allowed what change) (fun r _ => r = .ok ()) states
  rw [States.wp_transition, he]
  show if _ then _ else _
  split
  next hno => exact nomatch ha.symm.trans hno
  · exact rfl

/-- what a worker finds that holds a task -/
theorem Sound.finds (h : Sound cfg s) {w : WorkerId} {t : TaskId}
    (hw : stage (s.workers w) = .holds t) : ∃ e, s.states (s.tasks t).key = some e ∧
      Agrees (s.tasks t).request.eviction e.state (s.workers w) :=
  (held_task h.dispatched h.tracked hw).2

theorem Sound.popped (h : Sound cfg s) {w : WorkerId} {t : TaskId} (hw : s.workers w = .popped t) :
    Finds s (s.tasks t).key (waiting (s.tasks t).request.eviction) := by
  obtain ⟨e, he, ha⟩ := h.finds (w := w) (t := t) (by rw [hw]; rfl)
  rw [hw] at ha
  exact ⟨e, he, ha⟩

theorem Sound.transferred (h : Sound cfg s) {w : WorkerId} {t : TaskId} {r : TransferResult}
    (hw : s.workers w = .transferred t r) :
    Finds s (s.tasks t).key (moving (s.tasks t).request.eviction) := by
  obtain ⟨e, he, ha⟩ := h.finds (w := w) (t := t) (by rw [hw]; rfl)
  rw [hw] at ha
  exact ⟨e, he, ha⟩

theorem succeeds_markLoading {k : ExpertKey} (h : Finds s k .Queued) :
    Succeeds (States.markLoading k) s.states := by
  obtain ⟨e, he, hq⟩ := h
  exact succeeds_transition he (decide_eq_true hq)

theorem succeeds_markReady {k : ExpertKey} {eviction : Bool} (h : Finds s k (moving eviction))
    (location : MemoryTier) : Succeeds (States.markReady k location) s.states := by
  obtain ⟨e, he, hm⟩ := h
  refine succeeds_transition he ?_
  rw [hm]
  cases eviction <;> decide

theorem launch_succeeds {w : WorkerId} {t : TaskId}
    (h : (s.tasks t).request.eviction = false → Finds s (s.tasks t).key .Queued) :
    ((launch w t).exec s).1 = .ok () := by
  show wp (launch w t) (fun r _ => r = .ok ()) s
  show wp (read >>= _) _ s
  rw [wp_bind, wp_read]
  show wp (if _ then _ else _) _ s
  split
  · exact rfl
  · show wp (_ >>= _) _ s
    rw [wp_bind]
    split
    · exact rfl
    · next hev =>
      obtain ⟨e, he, hq⟩ := h (by simpa using hev)
      exact wp_onRecord_of_allowed he (decide_eq_true hq) rfl

theorem Sound.proceeds (h : Sound cfg s) : WorkersProceed s := by
  have hqueued : ∀ w t, s.workers w = .popped t → (s.tasks t).request.eviction = false →
      Finds s (s.tasks t).key .Queued := by
    intro w t hw hev
    have hfinds := h.popped hw
    rwa [hev] at hfinds
  refine ⟨h.alive, hqueued, fun w t r hw hev => ?_, fun w t r hw hev => ?_,
    fun w t hw hev => succeeds_markLoading (hqueued w t hw hev),
    fun w t r hw => succeeds_markReady (h.transferred hw) _,
    fun w t hw => launch_succeeds (hqueued w t hw)⟩
  · have hfinds := h.transferred hw
    rwa [hev] at hfinds
  · have hfinds := h.transferred hw
    rwa [hev] at hfinds

theorem run_proceeds {as : List Action} (h : run cfg as = some s) : WorkersProceed s :=
  (run_sound h).proceeds

/-- a worker has claimed the task of expert 1, which was requested twice -/
theorem run_proceeds_popped :
    ((run singleWorker (sharedThenShutdown.take 4)).get (by decide)).workers 0 = .popped 0 ∧
    WorkersProceed ((run singleWorker (sharedThenShutdown.take 4)).get (by decide)) :=
  ⟨by decide, run_proceeds (Option.some_get _).symm⟩

end HyperMoE.Scheduler
