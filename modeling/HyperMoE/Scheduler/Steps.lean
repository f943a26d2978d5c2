import HyperMoE.Scheduler.Scheduler

/-!
# What each operation of the scheduler does

The specifications of the calls of the state machine and of `schedule`, as the cases of their
outcome.

* `wp_snapshot`, `wp_transition`, `wp_markFailed`   calls of the state machine;
* `wp_schedule_cases`                               the cases of `schedule`;
* `Observed`, `wp_schedule`                         what an accepted request changes;
* `answer_of`, `thread_of`                          from a specification to the state after a step.
-/

namespace HyperMoE.Scheduler

open Lib Lib.Fallible

variable {cfg : SchedulerConfig} {s s' : Scheduler}

/-! ## small changes, field by field -/

@[simp] theorem goto_workers (w : WorkerId) (pc : WorkerPc) (s : Scheduler) :
    (s.goto w pc).workers = Function.update s.workers w pc := rfl

@[simp] theorem setTask_tasks (t : TaskId) (task : Task) (s : Scheduler) :
    (s.setTask t task).tasks = Function.update s.tasks t task := rfl

theorem set_set (k : ExpertKey) (e e' : ExpertState) (states : States) :
    (states.set k e).set k e' = states.set k e' := Function.update_idem ..

/-! ## calls of the state machine -/

theorem wp_onStates {α : Type} {x : States.Code α} {Q : Except Exn α → Scheduler → Prop} :
    wp (onStates x) Q s ↔ wp x (fun r states => Q r (s.setStates states)) s.states := Iff.rfl

theorem wp_snapshot {k : ExpertKey} {Q : Except Exn ExpertState → Scheduler → Prop} :
    wp (onStates (States.snapshot k)) Q s ↔ match s.states k with
      | some e => Q (.ok e) s
      | none => Q (.error (.outOfRange "expert state is not registered")) s := by
  rw [wp_onStates, States.wp_snapshot]
  exact Iff.rfl

variable {Q : Except Exn Unit → Scheduler → Prop}

theorem wp_transition {k : ExpertKey} {allowed : ExpertLifecycleState → Bool} {what : String}
    {change : ExpertState → ExpertState} :
    wp (onStates (States.transition k allowed what change)) Q s ↔ match s.states k with
      | none => Q (.error (.outOfRange "expert state is not registered")) s
      | some e => if allowed e.state = false then Q (.error (.logicError what)) s
          else Q (.ok ()) (s.setStates (s.states.set k (change e))) := by
  rw [wp_onStates, States.wp_transition]
  exact Iff.rfl

/-- an operation on one record: it is there and allows it, or nothing changes -/
theorem wp_onRecord {k : ExpertKey} {allowed : ExpertLifecycleState → Bool} {what : String}
    {change : ExpertState → ExpertState}
    (hok : ∀ e, s.states k = some e → allowed e.state = true →
      Q (.ok ()) (s.setStates (s.states.set k (change e))))
    (herror : (∀ e, s.states k = some e → allowed e.state = false) → ∀ x, Q (.error x) s) :
    wp (onStates (States.transition k allowed what change)) Q s := by
  refine wp_transition.mpr ?_
  cases he : s.states k with
  | none => exact herror (fun e h => nomatch he.symm.trans h) _
  | some e =>
    show if _ then _ else _
    split
    · next hr =>
      refine herror (fun e' h => ?_) _
      obtain rfl := Option.some.inj (he.symm.trans h)
      exact hr
    · next hr => exact hok e he (by simpa using hr)

theorem wp_onRecord_of_allowed {k : ExpertKey} {allowed : ExpertLifecycleState → Bool}
    {what : String} {change : ExpertState → ExpertState} {e : ExpertState}
    (he : s.states k = some e) (ha : allowed e.state = true)
    (h : Q (.ok ()) (s.setStates (s.states.set k (change e)))) :
    wp (onStates (States.transition k allowed what change)) Q s := by
  apply wp_onRecord
  · intro e' he' _
    obtain rfl := Option.some.inj (he.symm.trans he')
    exact h
  · intro hno
    rw [hno e he] at ha
    cases ha

theorem wp_markFailed {k : ExpertKey} :
    wp (onStates (States.markFailed k)) Q s ↔ match s.states k with
      | none => Q (.error (.outOfRange "expert state is not registered")) s
      | some e => Q (.ok ()) (s.setStates (s.states.set k { e with state := .Failed })) := by
  rw [wp_onStates, States.wp_markFailed]
  exact Iff.rfl

/-! ## schedule -/

/-- the request that the step submits -/
def Action.request (cfg : SchedulerConfig) : Action → Option ScheduleRequest
  | .schedule request _ => some request
  | .prefetch prediction _ => some (prefetchRequest cfg prediction)
  | _ => none

/-- the record of an expert whose task has just been accepted -/
def begun (request : ScheduleRequest) (e : ExpertState) : ExpertState :=
  { e with
    targetLocation := request.destination
    state := if request.eviction then .Evicting else .Queued }

/-- the state machine accepts a new task -/
def canBegin (request : ScheduleRequest) (e : ExpertState) : Prop :=
  e.state = .Ready ∨ (request.eviction = false ∧ e.state = .Failed)

theorem wp_beginTransition {request : ScheduleRequest} {e : ExpertState}
    (he : s.states request.key = some e)
    (hok : canBegin request e →
      Q (.ok ()) (s.setStates (s.states.set request.key (begun request e))))
    (herr : ¬ canBegin request e → ∀ x, Q (.error x) s) : wp (beginTransition request) Q s := by
  unfold beginTransition
  split
  · next h =>
    have hb : begun request e = { e with
        targetLocation := request.destination, state := .Evicting } := by
      unfold begun
      rw [if_pos h]
    refine wp_transition.mpr ?_
    rw [he]
    show if _ then _ else _
    split
    · next hs =>
      refine herr (fun hc => ?_) _
      rcases hc with hc | hc
      · simp [hc] at hs
      · exact absurd (h.symm.trans hc.1) (by simp)
    · next hs => exact hb ▸ hok (.inl (by simpa using hs))
  · next h =>
    have hb : begun request e = { e with
        targetLocation := request.destination, state := .Queued } := by
      unfold begun
      rw [if_neg h]
    rw [wp_bind]
    refine wp_transition.mpr ?_
    rw [he]
    show if _ then _ else _
    split
    · next hs =>
      refine herr (fun hc => ?_) _
      rcases hc with hc | hc
      · simp [hc] at hs
      · simp [hc.2] at hs
    · next hs =>
      have hc : canBegin request e := by
        have hs' : e.state = .Ready ∨ e.state = .Failed :=
          Classical.or_iff_not_imp_left.mpr (by simpa using hs)
        exact hs'.imp_right fun hf => ⟨by simpa using h, hf⟩
      refine wp_transition.mpr ?_
      show match (s.states.set request.key _) request.key with
        | none => _
        | some e => _
      rw [States.set_self]
      show Q (.ok ()) (s.setStates ((s.states.set request.key _).set request.key _))
      rw [set_set, ← hb]
      exact hok hc

/-- `s₁` is `s` up to what an observed request changes: the mark of a prefetched expert, the
counters, and who waits for a pending prefetch -/
structure Observed (k : ExpertKey) (s s₁ : Scheduler) : Prop where
  same : s₁ = { s with
    tasks := s₁.tasks, prefetchedReady := s₁.prefetchedReady, profiler := s₁.profiler }
  tasks : ∀ t, s₁.tasks t = s.tasks t ∨ s₁.tasks t = { s.tasks t with activeConsumer := true }
  marks : s₁.prefetchedReady = s.prefetchedReady ∨
    s₁.prefetchedReady = s.prefetchedReady.erase k

theorem Observed.refl (k : ExpertKey) (s : Scheduler) : Observed k s s :=
  ⟨rfl, fun _ => .inl rfl, .inl rfl⟩

/-- what a task is to everyone but the profiler -/
theorem Observed.task {k : ExpertKey} {s₁ : Scheduler} {α : Type} (h : Observed k s s₁)
    (f : Task → α) (hf : ∀ task, f { task with activeConsumer := true } = f task) (t : TaskId) :
    f (s₁.tasks t) = f (s.tasks t) := by
  rcases h.tasks t with e | e
  · rw [e]
  · rw [e, hf]

theorem observed_pending {k : ExpertKey} {s₁ : Scheduler} (h : Observed k s s₁) (t : TaskId)
    (ready : Bool) : Observed k s (observePending t ready s₁) := by
  unfold observePending
  split
  · split
    · refine ⟨?_, fun t' => ?_, h.marks⟩
      · rw [h.same]
        rfl
      · show Function.update s₁.tasks t { s₁.tasks t with activeConsumer := true } t' = _ ∨
          Function.update s₁.tasks t { s₁.tasks t with activeConsumer := true } t' = _
        rw [Function.update_apply]
        split
        · next e =>
          subst e
          rcases h.tasks t' with e | e <;> exact .inr (by rw [e])
        · exact h.tasks t'
    · refine ⟨?_, h.tasks, h.marks⟩
      rw [h.same]
  · exact h

theorem observed_observeRequest (request : ScheduleRequest) (e : ExpertState)
    (existing : Option TaskId) (s : Scheduler) :
    Observed request.key s (observeRequest cfg request e existing s) := by
  have herased : Observed request.key s (forgetPrefetched request.key s) :=
    ⟨rfl, fun _ => .inl rfl, .inr rfl⟩
  unfold observeRequest
  split
  · split
    · exact ⟨rfl, fun _ => .inl rfl, .inl rfl⟩
    · split
      · unfold observeActive
        show Observed request.key s (if _ then _ else _)
        split
        · exact ⟨rfl, fun _ => .inl rfl, .inr rfl⟩
        · cases existing with
          | none => exact herased
          | some t => exact observed_pending herased t _
      · exact .refl ..
  · exact .refl ..

/-- the cases of `schedule`, with the state in which the request was observed -/
theorem wp_schedule_cases {request : ScheduleRequest} {callback : Bool}
    {Q : Except Exn Reply → Scheduler → Prop}
    (hstop : s.stopping = true → Q (.error (.runtimeError "Scheduler is shutting down")) s)
    (hunknown : s.stopping = false → s.states request.key = none →
      Q (.error (.outOfRange "expert state is not registered")) s)
    (hready : ∀ s₁ e, s₁ = observeRequest cfg request e (s.pendingByExpert request.key) s →
      s.stopping = false → s.states request.key = some e →
      immediatelyReady request e (s.pendingByExpert request.key) = true →
      Q (.ok (acceptReady request callback s₁).1) (acceptReady request callback s₁).2)
    (hother : ∀ s₁ e t, s₁ = observeRequest cfg request e (s.pendingByExpert request.key) s →
      s.stopping = false → s.states request.key = some e → s.pendingByExpert request.key = some t →
      (s.tasks t).request.destination ≠ request.destination →
      Q (.error (.logicError "expert already has a different pending target")) s₁)
    (hjoin : ∀ s₁ e t, s₁ = observeRequest cfg request e (s.pendingByExpert request.key) s →
      s.stopping = false → s.states request.key = some e → s.pendingByExpert request.key = some t →
      (s.tasks t).request.destination = request.destination →
      Q (.ok (coalesce t request callback s₁).1) (coalesce t request callback s₁).2)
    (hrefused : ∀ s₁ e, s₁ = observeRequest cfg request e none s → s.stopping = false →
      s.states request.key = some e → s.pendingByExpert request.key = none →
      immediatelyReady request e none = false → ¬ canBegin request e → ∀ x, Q (.error x) s₁)
    (hnew : ∀ s₁ e, s₁ = observeRequest cfg request e none s → s.stopping = false →
      s.states request.key = some e → s.pendingByExpert request.key = none →
      immediatelyReady request e none = false → canBegin request e → ∀ s₂ : Scheduler,
      s₂ = s₁.setStates (s₁.states.set request.key (begun request e)) →
      Q (.ok (enqueue request callback s₂).1) (enqueue request callback s₂).2) :
    wp (schedule cfg request callback) Q s := by
  show wp (read >>= _) Q s
  rw [wp_bind, wp_read]
  show wp (_ >>= _) Q s
  rw [wp_bind, wp_throwIf]
  split
  · next h => exact hstop h
  next h =>
  have hs : s.stopping = false := by simpa using h
  show wp (_ >>= _) Q s
  rw [wp_bind, wp_snapshot]
  cases he : s.states request.key with
  | none => exact hunknown hs he
  | some e =>
    show wp (_ >>= _) Q s
    rw [wp_bind, wp_update]
    have ho := @observed_observeRequest cfg request e (s.pendingByExpert request.key) s
    generalize hs₁ : observeRequest cfg request e (s.pendingByExpert request.key) s = s₁ at ho
    have he₁ : s₁.states request.key = some e := by
      rw [ho.same]
      exact he
    show wp (if _ then _ else _) Q s₁
    split
    · next hi => exact hready s₁ e hs₁.symm hs he hi
    · next hi =>
      cases hp : s.pendingByExpert request.key with
      | some t =>
        have hd := ho.task (fun task => task.request.destination) (fun _ => rfl) t
        show wp (read >>= _) Q s₁
        rw [wp_bind, wp_read]
        show wp (_ >>= _) Q s₁
        rw [wp_bind, wp_throwIf]
        split
        · next h => exact hother s₁ e t hs₁.symm hs he hp (fun h' => h (hd.trans h'))
        · next h => exact hjoin s₁ e t hs₁.symm hs he hp (hd.symm.trans (not_not.mp h))
      | none =>
        show wp (_ >>= _) Q s₁
        rw [wp_bind]
        rw [hp] at hi hs₁
        have hi' : immediatelyReady request e none = false := by simpa using hi
        exact wp_beginTransition he₁ (fun hc => hnew s₁ e hs₁.symm hs he hp hi' hc _ rfl)
          fun hc x => hrefused s₁ e hs₁.symm hs he hp hi' hc x

/-- the same, up to what observing the request changes -/
theorem wp_schedule {request : ScheduleRequest} {callback : Bool}
    {Q : Except Exn Reply → Scheduler → Prop}
    (hready : ∀ s₁ e, Observed request.key s s₁ → s.stopping = false →
      s.states request.key = some e →
      immediatelyReady request e (s.pendingByExpert request.key) = true →
      Q (.ok (acceptReady request callback s₁).1) (acceptReady request callback s₁).2)
    (hjoin : ∀ s₁ t, Observed request.key s s₁ → s.stopping = false →
      s.pendingByExpert request.key = some t →
      (s.tasks t).request.destination = request.destination →
      Q (.ok (coalesce t request callback s₁).1) (coalesce t request callback s₁).2)
    (hnew : ∀ s₁ e, Observed request.key s s₁ → s.stopping = false →
      s.states request.key = some e → s.pendingByExpert request.key = none →
      immediatelyReady request e none = false → canBegin request e → ∀ s₂ : Scheduler,
      s₂ = s₁.setStates (s₁.states.set request.key (begun request e)) →
      Q (.ok (enqueue request callback s₂).1) (enqueue request callback s₂).2)
    (herr : ∀ s₁ x, Observed request.key s s₁ → Q (.error x) s₁) :
    wp (schedule cfg request callback) Q s := by
  have ho : ∀ {s₁ : Scheduler} {e : ExpertState} {existing : Option TaskId},
      s₁ = observeRequest cfg request e existing s → Observed request.key s s₁ := by
    rintro s₁ e existing rfl
    exact observed_observeRequest ..
  apply wp_schedule_cases
  · exact fun _ => herr s _ (.refl ..)
  · exact fun _ _ => herr s _ (.refl ..)
  · exact fun s₁ e hs₁ => hready s₁ e (ho hs₁)
  · exact fun s₁ e t hs₁ _ _ _ _ => herr s₁ _ (ho hs₁)
  · exact fun s₁ e t hs₁ hs _ => hjoin s₁ t (ho hs₁) hs
  · exact fun s₁ e hs₁ _ _ _ _ _ x => herr s₁ x (ho hs₁)
  · exact fun s₁ e hs₁ => hnew s₁ e (ho hs₁)

/-! ## from a specification to the state after the step -/

/-- the call of the step threw -/
def Threw (s s' : Scheduler) : Prop := ∃ x, s'.history = .threw x :: s.history

/-- a public operation -/
theorem answer_of {P : Scheduler → Prop} {x : Code Reply}
    (h : wp x (fun r s' => match r with
      | .ok reply => P (s'.log (.replied reply))
      | .error e => P (s'.log (.threw e))) s) : P (s.answer x) := by
  unfold answer
  rw [wp_def] at h
  cases hx : x.exec s with
  | mk r s' =>
    rw [hx] at h
    cases r <;> exact h

/-- code of a thread -/
theorem thread_of {P : Scheduler → Prop} {x : Code Unit}
    (h : wp x (fun r s' => match r with
      | .ok _ => P s'
      | .error _ => P { s' with terminated := true }) s) : P (s.thread x) := by
  unfold thread
  rw [wp_def] at h
  cases hx : x.exec s with
  | mk r s' =>
    rw [hx] at h
    cases r <;> exact h

end HyperMoE.Scheduler
