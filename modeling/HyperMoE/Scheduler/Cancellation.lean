import HyperMoE.Scheduler.Isolation
import HyperMoE.Scheduler.Order

/-!
# Who can cancel a result

Requests that share a task share its flag and its result.  A result is a cancelled one only if one of
them was cancelled, the scheduler was shut down, or the transfer manager gave up the transfer by
itself.

* `Cancels`             the steps that can make a result of a future a cancelled one;
* `Uncancelled`         nothing that is delivered, or on its way, is cancelled;
* `run_uncancelled`     it holds after every run without such a step;
* `cancelled_by_sharer` one request's `cancel` cancels the other requests of the task.
-/

namespace HyperMoE.Scheduler

open Lib Lib.Fallible

variable {cfg : SchedulerConfig} {s s' : Scheduler} {c : Core}

/-- the task whose transfer the worker waits for -/
def awaits : WorkerPc → Option TaskId
  | .loading t => some t
  | _ => none

/-- the steps that can make a result of the future a cancelled one: `cancel` on a handle of it,
`shutdown`, and a transfer manager that gives up a transfer whose flag is not set -/
def Cancels (f : Future) (s : Scheduler) : Action → Prop
  | .cancel n => ∃ x ∈ s.requests n, x.future = f
  | .shutdown => True
  | .work w (.ok r) =>
    r.status = .Cancelled ∧ ∃ t ∈ awaits (s.workers w), f = .task t ∧ s.cancelled t = false
  | _ => False

instance (f : Future) (s : Scheduler) (a : Action) : Decidable (Cancels f s a) := by
  apply Action.casesOn (motive := fun a => Decidable (Cancels f s a)) a
  case work =>
    intro w outcome
    apply Except.casesOn (motive := fun outcome => Decidable (Cancels f s (.work w outcome)))
      outcome <;> intros <;> unfold Cancels <;> infer_instance
  all_goals
    intros
    unfold Cancels
    infer_instance

/-- the result that the worker comes with -/
def coming : WorkerPc → Option ScheduleResult
  | .failing _ result => some result
  | .failed _ result => some result
  | .completing _ result => some result
  | .notifying _ result _ => some result
  | _ => none

/-- the result that a caller of `readyResult` comes with -/
def answering : ReadyCall → Option ScheduleResult
  | .answering result => some result
  | .answered result => some result
  | _ => none

structure Uncancelled (f : Future) (s : Scheduler) : Prop where
  flag : ∀ t, f = .task t → s.cancelled t = false
  worker : ∀ w t, f = .task t → (stage (s.workers w)).task = some t →
    ∀ result, coming (s.workers w) = some result → result.cancelled = false
  caller : ∀ n call, s.calls n = some call → ∀ result, answering call = some result →
    result.cancelled = false
  said : Said (fun result => result.cancelled = false) s.core f

theorem new_uncancelled (f : Future) : Uncancelled f {} where
  flag _ _ := rfl
  worker _ _ _ h := nomatch h
  caller _ _ h := nomatch h
  said := ⟨fun _ h => (nomatch h), fun _ _ _ h => nomatch h⟩

/-! ## the flag -/

theorem flag_schedule (request : ScheduleRequest) (callback : Bool) {t : TaskId}
    (hf : s.cancelled t = false) :
    (s.answer (schedule cfg request callback)).cancelled t = false := by
  have hobserved : ∀ {s₁ : Scheduler}, Observed request.key s s₁ → s₁.cancelled t = false := by
    intro s₁ ho
    rw [ho.same]
    exact hf
  refine answer_of (P := fun s' => s'.cancelled t = false) (wp_schedule ?_ ?_ ?_ ?_)
  · intro s₁ e ho _ _ _
    show (acceptReady request callback s₁).2.cancelled t = false
    unfold acceptReady
    have hs₁ := hobserved ho
    show (setCall _ _ (accept _ _ _ (if _ then _ else _))).cancelled t = false
    split <;> exact hs₁
  · intro s₁ t' ho _ _ _
    show (putJoined ..).cancelled t = false
    have hs₁ := hobserved ho
    unfold putJoined
    split <;> exact hs₁
  · rintro s₁ e ho - - - - - s₂ rfl
    show Function.update s₁.cancelled s₁.nextTask false t = false
    rw [Function.update_apply]
    split
    · rfl
    · exact hobserved ho
  · intro s₁ x ho
    have hs₁ := hobserved ho
    exact hs₁

theorem flag_pop (w : WorkerId) (s : Scheduler) : (s.pop w).cancelled = s.cancelled := by
  unfold pop
  split
  · rfl
  · split <;> rfl

/-- the flag of a task is set by `cancel` on one of its handles, or by `shutdown` while it is pending -/
theorem flag_step {a : Action} {t : TaskId} (h : step cfg a s = some s')
    (hcancel : ∀ n, a = .cancel n → ∀ x ∈ s.requests n, x.future ≠ .task t)
    (hstop : a = .shutdown → s.isPending t = false) (hf : s.cancelled t = false) :
    s'.cancelled t = false := by
  have hrest : a.request cfg = none → (∀ n, a ≠ .cancel n) → a ≠ .shutdown →
      (∀ w outcome, a = .work w outcome → s.workers w ≠ .waiting) → s'.cancelled t = false := by
    intro hq hc hs hw
    have hsame : s'.cancelled = s.cancelled := congrArg Prod.snd (step_backlog h hq hc hs hw)
    rw [hsame]
    exact hf
  cases a with
  | schedule request callback =>
    obtain ⟨-, -, rfl⟩ := step_eq h
    exact flag_schedule request callback hf
  | prefetch prediction callback =>
    obtain ⟨-, -, rfl⟩ := step_eq h
    exact flag_schedule (prefetchRequest cfg prediction) callback hf
  | cancel n =>
    obtain ⟨-, -, rfl⟩ := step_eq h
    show (s.cancel n).cancelled t = false
    unfold cancel
    split
    · next request t' callback hx =>
      have hne : t ≠ t' := by
        rintro rfl
        exact hcancel n rfl _ hx rfl
      exact (Function.update_of_ne hne ..).trans hf
    · exact hf
  | shutdown =>
    obtain ⟨-, -, rfl⟩ := step_eq h
    show (shutdown s).cancelled t = false
    unfold shutdown
    split
    · exact hf
    · show (s.cancelled t || s.isPending t) = false
      rw [hf, hstop rfl]
      rfl
  | work w outcome =>
    by_cases hpc : s.workers w = .waiting
    · obtain ⟨-, -, rfl⟩ := step_eq h
      show (s.thread (work cfg w outcome (s.workers w))).cancelled t = false
      rw [hpc]
      exact (congrFun (flag_pop w s) t).trans hf
    · refine hrest rfl (fun _ => nofun) nofun fun w' outcome' ha => ?_
      obtain ⟨rfl, rfl⟩ := Action.work.inj ha
      exact hpc
  | _ => exact hrest rfl (fun _ => nofun) nofun fun _ _ => nofun

/-! ## the result -/

/-- a worker whose task's flag is not set goes to a cancelled result only on the manager's word -/
theorem launch_uncancelled {w : WorkerId} {t : TaskId} {result : ScheduleResult}
    (hw : s.workers w = .popped t) (hf : s.cancelled t = false)
    (h : (s.thread (launch w t)).workers w = .failing t result) : False := by
  have hspec : wp (launch w t) (fun _ s' => s'.workers w ≠ .failing t result) s := by
    show wp (read >>= _) _ s
    rw [wp_bind, wp_read]
    show wp (if _ then _ else _) _ s
    rw [if_neg (by rw [hf]; simp)]
    have hgoto : ∀ states, wp (update (goto w (.loading t)) : Code Unit)
        (fun _ s' => s'.workers w ≠ .failing t result) (s.setStates states) := by
      intro states he
      replace he : Function.update s.workers w (.loading t) w = .failing t result := he
      rw [Function.update_self] at he
      exact nomatch he
    have hstay : s.workers w ≠ .failing t result := by
      rw [hw]
      exact nofun
    show wp (_ >>= _) _ s
    rw [wp_bind]
    split
    · exact hgoto s.states
    · refine wp_onStates_any fun r states => ?_
      cases r with
      | ok _ => exact hgoto states
      | error _ => exact hstay
  have hne : (s.thread (launch w t)).workers w ≠ .failing t result := by
    refine thread_of (P := fun s' => s'.workers w ≠ .failing t result) (wp_mono hspec fun r s' h => ?_)
    cases r <;> exact h
  exact hne h

theorem await_uncancelled {w : WorkerId} {t : TaskId} {outcome : TransferOutcome}
    {result : ScheduleResult} (hno : ∀ r, outcome = .ok r → r.status ≠ .Cancelled)
    (h : (s.awaitTransfer w t outcome).workers w = .failing t result) : result.cancelled = false := by
  unfold awaitTransfer at h
  cases outcome with
  | error e =>
    replace h : Function.update s.workers w (.failing t (failure e)) w = .failing t result := h
    rw [Function.update_self] at h
    obtain ⟨-, rfl⟩ := WorkerPc.failing.inj h
    rfl
  | ok r =>
    replace h : (if r.status = .Cancelled then _ else _ : Scheduler).workers w = .failing t result := h
    rw [if_neg (hno r rfl)] at h
    replace h : Function.update s.workers w (.transferred t r) w = .failing t result := h
    rw [Function.update_self] at h
    exact nomatch h

/-- a worker that has moved has made the step -/
theorem work_of_moved {a : Action} {w : WorkerId} (hs : Sound cfg s) (h : step cfg a s = some s')
    (hmoved : s'.workers w ≠ s.workers w) :
    ∃ outcome, a = .work w outcome ∧ s' = s.thread (work cfg w outcome (s.workers w)) := by
  have hc := (step_change hs.dispatched hs.tracked h).1
  obtain ⟨-, -, hperform⟩ := step_eq h
  rcases hc.workers_eq with e | ⟨w', outcome, pc, rfl, -, e⟩
  · exact absurd (congrFun e w) hmoved
  · have hww : w = w' := by
      by_contra hne
      exact hmoved ((congrFun e w).trans (Function.update_of_ne hne ..))
    subst hww
    exact ⟨outcome, rfl, hperform⟩

/-- before and in the transfer, the worker does not go to a cancelled result -/
theorem begun_uncancelled {a : Action} {w : WorkerId} {t : TaskId} {result : ScheduleResult}
    (hs : Sound cfg s) (h : step cfg a s = some s') (hno : ¬ Cancels (.task t) s a)
    (hf : s.cancelled t = false) (hw : s.workers w = .popped t ∨ s.workers w = .loading t)
    (hw' : s'.workers w = .failing t result) : result.cancelled = false := by
  have hmoved : s'.workers w ≠ s.workers w := by
    rw [hw']
    rcases hw with hw | hw <;> rw [hw] <;> exact nofun
  obtain ⟨outcome, rfl, hthread⟩ := work_of_moved hs h hmoved
  rw [hthread] at hw'
  rcases hw with hw | hw
  · rw [hw] at hw'
    exact absurd hw' fun h => launch_uncancelled hw hf h
  · rw [hw] at hw'
    refine await_uncancelled (fun r hr hcancelled => ?_) hw'
    subst hr
    exact hno ⟨hcancelled, t, by rw [hw]; rfl, rfl, hf⟩

/-! ## every step -/

theorem step_uncancelled {f : Future} {a : Action} (hs : Sound cfg s) (h : step cfg a s = some s')
    (hno : ¬ Cancels f s a) (i : Uncancelled f s) : Uncancelled f s' := by
  have hc := (step_change hs.dispatched hs.tracked h).1
  refine ⟨fun t ht => ?_, fun w t ht htask result hr => ?_, fun n call hn result hr => ?_, ?_⟩
  · subst ht
    refine flag_step h ?_ ?_ (i.flag t rfl)
    · rintro n rfl y hy hf
      exact hno ⟨y, hy, hf⟩
    · rintro rfl
      exact absurd trivial hno
  · subst ht
    have hbefore := i.worker w t rfl
    rcases hc.next_of w with e | hn
    · replace e : s'.workers w = s.workers w := e
      rw [e] at htask hr
      exact hbefore htask result hr
    · replace hn : Next cfg s (s.workers w) (s'.workers w) := hn
      have hstart : ∀ {pc : WorkerPc}, s.workers w = pc → (pc = .popped t ∨ pc = .loading t) →
          s'.workers w = .failing t result → result.cancelled = false := fun hw hpc hw' =>
        begun_uncancelled hs h hno (i.flag t rfl) (by rw [hw]; exact hpc) hw'
      generalize hpc : s.workers w = pc at hn hbefore
      generalize hpc' : s'.workers w = pc' at hn htask hr
      cases hn
      case cancelled =>
        obtain rfl := Option.some.inj htask
        obtain rfl := Option.some.inj hr
        exact hstart hpc (.inl rfl) hpc'
      case aborted =>
        obtain rfl := Option.some.inj htask
        obtain rfl := Option.some.inj hr
        exact hstart hpc (.inr rfl) hpc'
      case refused =>
        obtain rfl := Option.some.inj hr
        rfl
      case succeeds =>
        obtain rfl := Option.some.inj hr
        rfl
      case notesFailure result' e =>
        obtain rfl := Option.some.inj hr
        exact hbefore htask result' rfl
      case marksFailed => exact hbefore htask result hr
      case completes => exact hbefore htask result hr
      case calls => exact hbefore htask result hr
      all_goals exact nomatch hr
  · have hold : ∀ {m : RequestId} {call' : Option ReadyCall},
        Function.update s.calls m call' n = some call →
        (∀ call₁, call' = some call₁ → answering call₁ = some result → result.cancelled = false) →
        result.cancelled = false := by
      intro m call' hm hnew
      rw [Function.update_apply] at hm
      split at hm
      · exact hnew call hm hr
      · exact i.caller n call hm result hr
    generalize hcore : s'.core = c at hc
    have hcalls : s'.calls = c.calls := congrArg Core.calls hcore
    rw [hcalls] at hn
    cases hc
    case answersAtOnce =>
      refine hold hn fun call₁ h₁ hr₁ => ?_
      obtain rfl := Option.some.inj h₁
      exact nomatch hr₁
    case looks =>
      refine hold hn fun call₁ h₁ hr₁ => ?_
      obtain rfl := Option.some.inj h₁
      exact nomatch hr₁
    case snapshots =>
      refine hold hn fun call₁ h₁ hr₁ => ?_
      obtain rfl := Option.some.inj h₁
      obtain rfl := Option.some.inj hr₁
      rfl
    case answers m a result' ha hm =>
      refine hold hn fun call₁ h₁ hr₁ => ?_
      obtain rfl := Option.some.inj h₁
      exact i.caller m _ hm result hr₁
    case answered => exact hold hn fun call₁ h₁ => nomatch h₁
    all_goals exact i.caller n call hn result hr
  · refine Said.change hs.dispatched hc (fun w t result rest ht hw => ?_) (fun n result _ hn => ?_)
      i.said
    · exact i.worker w t ht (by rw [hw]; rfl) result (by rw [hw]; rfl)
    · rcases hn with hn | hn
      · exact i.caller n _ hn result rfl
      · exact i.caller n _ hn result rfl

/-! ## runs -/

/-- A result that a handle delivers, by its future or by its callback, is not a cancelled one, if no
handle that shares its future was cancelled, the scheduler was not shut down, and the transfer manager
did not give up the transfer by itself. -/
theorem run_uncancelled {as : List Action} {n : RequestId} {x : Accepted}
    (h : run cfg as = some s) (hx : s.requests n = some x)
    (hno : Runs.Along (step cfg) (fun s a _ => ¬ Cancels x.future s a) {} as) :
    (∀ result ∈ deliveries x.future s.history, result.cancelled = false) ∧
      ∀ result ∈ callbackCalls n s.history, result.cancelled = false := by
  have hkeeps : ∀ s a s', step cfg a s = some s' → ¬ Cancels x.future s a →
      Sound cfg s ∧ Uncancelled x.future s → Sound cfg s' ∧ Uncancelled x.future s' :=
    fun _ _ _ ha hc hi => ⟨step_sound hi.1 ha, step_uncancelled hi.1 ha hc hi.2⟩
  have hinit : Sound cfg ({} : Scheduler) ∧ Uncancelled x.future {} := ⟨new_sound, new_uncancelled _⟩
  obtain ⟨-, i⟩ := Runs.run_keeps hkeeps as _ _ hno hinit h
  refine ⟨fun result hm => i.said.resolved result (noted_mem rfl (mem_resolved hm)),
    fun result hm => i.said.called n x result hx rfl (noted_mem rfl (mem_called hm))⟩

/-- two prefetches and an active request that joins the first; the second prefetch is cancelled -/
def sharedRun : List Action :=
  .registerExpert (0, 1) .Nvme :: .registerExpert (0, 2) .Nvme ::
    .prefetch ⟨0, 2, 1, 1⟩ false :: .prefetch ⟨0, 1, 1, 1⟩ false ::
    .schedule { expertId := 2, destination := .Ram } true :: .cancel 1 ::
      loadInto (twoBytes 2) ++ List.replicate 6 (.work 0 (.error .outOfFuel))

theorem run_uncancelled_other_prefetch : ∃ s x, run smallBound sharedRun = some s ∧
    s.requests 2 = some x ∧ (callbackCalls 2 s.history).length = 1 ∧
    (∀ result ∈ deliveries x.future s.history, result.cancelled = false) ∧
      ∀ result ∈ callbackCalls 2 s.history, result.cancelled = false := by
  have hfacts : (run smallBound sharedRun).map (fun s =>
      (s.requests 2, (callbackCalls 2 s.history).length)) =
        some (some ⟨{ expertId := 2, destination := .Ram }, .task 0, true⟩, 1) := by decide +kernel
  cases h : run smallBound sharedRun with
  | none =>
    rw [h] at hfacts
    exact nomatch hfacts
  | some s =>
    rw [h] at hfacts
    obtain ⟨hx, hlength⟩ := Prod.mk.inj (Option.some.inj hfacts)
    exact ⟨s, _, rfl, hx, hlength, run_uncancelled h hx (by decide +kernel)⟩

/-- an active request joins a prefetch, and the prefetch is cancelled -/
def sharedFlagRun : List Action :=
  [.registerExpert (0, 0) .Nvme, .prefetch ⟨0, 0, 1, 1⟩ false, .schedule {} true, .cancel 0] ++
    List.replicate 8 (.work 0 (.error .outOfFuel))

/-- the step neither cancels the request nor shuts the scheduler down -/
def spares (n : RequestId) : Action → Bool
  | .cancel m => m ≠ n
  | .shutdown => false
  | _ => true

theorem cancelled_by_sharer : (∀ a ∈ sharedFlagRun, spares 1 a = true) ∧
    (run {} sharedFlagRun).map (fun s => ((callbackCalls 1 s.history).map (·.cancelled),
      (s.requests 1).map fun x => (deliveries x.future s.history).map (·.cancelled))) =
        some ([true], some [true]) := by
  decide +kernel

end HyperMoE.Scheduler
