import Mathlib.Logic.Relation
import HyperMoE.Lib.Dispatch.Recorded
import HyperMoE.Scheduler.Steps

/-!
# The scheduler dispatches shared tasks

What the scheduler is, apart from experts, tiers and buffers: a pool of shared tasks
(`Lib.Dispatch`).  `view` forgets the rest, and every step of the scheduler is a chain of steps of
the pool, so the scheduler has the pool's invariants in every reachable state.

* `view`             the pool that a scheduler is;
* `step_view`        a step of the scheduler is a chain of steps of its pool;
* `run_dispatched`   in every reachable state the pool is `Linked` and `Recorded`.
-/

namespace HyperMoE.Scheduler

open Lib Lib.Fallible

variable {cfg : SchedulerConfig} {s s' : Scheduler}

/-! ## the view -/

def ticket (task : Task) : Dispatch.Ticket ExpertKey (TransferPriority × ℚ) where
  key := task.key
  rank := (task.request.priority, task.request.priorityScore)
  generation := task.generation
  callbacks := task.callbacks
  started := task.started
  completed := task.completed

def entry (e : QueueEntry) : Dispatch.Entry (TransferPriority × ℚ) :=
  ⟨e.task, (e.priority, e.priorityScore), e.generation⟩

def stage : WorkerPc → Dispatch.Stage ScheduleResult
  | .waiting => .idle
  | .popped t => .holds t
  | .loading t => .holds t
  | .transferred t _ => .holds t
  | .ready t _ => .holds t
  | .trimming t _ _ _ => .holds t
  | .recorded t _ => .holds t
  | .failing t _ => .holds t
  | .failed t _ => .holds t
  | .completing t _ => .holds t
  | .notifying t result callbacks => .delivers t result callbacks
  | .exited => .exited

def promise : Future → Dispatch.Promise
  | .task t => .shared t
  | .own n => .own n

def answerOf : ReadyCall → Dispatch.Answer ScheduleResult
  | .looking => .due
  | .looked _ => .due
  | .answering _ => .due
  | .answered result => .given result

def said : Event → Option (Dispatch.Event ScheduleResult)
  | .started t w => some (.started t w)
  | .called n result => some (.called n result)
  | .resolved f result => some (.settled (promise f) result)
  | _ => none

def view (s : Scheduler) : Dispatch.Pool ExpertKey (TransferPriority × ℚ) ScheduleResult where
  tickets t := ticket (s.tasks t)
  next := s.nextTask
  queue := s.queue.map entry
  pending := s.pendingByExpert
  workers w := stage (s.workers w)
  stopping := s.stopping
  requests n := (s.requests n).map fun a => (promise a.future, a.callback)
  nextRequest := s.nextRequest
  calls n := (s.calls n).map answerOf
  log := s.history.filterMap said

/-! ## the view of a changed state -/

theorem map_update {α β : Type} (f : α → β) (g : Nat → α) (i : Nat) (x : α) :
    (fun j => f (Function.update g i x j)) = Function.update (fun j => f (g j)) i (f x) := by
  funext j
  rw [Function.update_apply, Function.update_apply]
  split <;> rfl

theorem view_setTask (t : TaskId) (task : Task) (s : Scheduler) :
    (s.setTask t task).view = s.view.setTicket t (ticket task) := by
  unfold view setTask Dispatch.Pool.setTicket
  rw [← map_update ticket]

theorem view_goto (w : WorkerId) (pc : WorkerPc) (s : Scheduler) :
    (s.goto w pc).view = s.view.setWorker w (stage pc) := by
  unfold view goto Dispatch.Pool.setWorker
  rw [← map_update stage]

/-- a worker that stays with its task -/
theorem view_goto_same {w : WorkerId} {pc : WorkerPc} (h : stage (s.workers w) = stage pc) :
    (s.goto w pc).view = s.view := by
  rw [view_goto, ← h]
  unfold Dispatch.Pool.setWorker
  show ({ s.view with workers := Function.update s.view.workers w (s.view.workers w) } :
    Dispatch.Pool ..) = _
  rw [Function.update_eq_self]

theorem view_accept (request : ScheduleRequest) (f : Future) (callback : Bool) (s : Scheduler) :
    (s.accept request f callback).view = s.view.enlist (promise f) callback := by
  unfold view accept Dispatch.Pool.enlist
  congr 1
  funext n
  show Option.map _ (Function.update s.requests s.nextRequest (some ⟨request, f, callback⟩) n) = _
  rw [Function.update_apply, Function.update_apply]
  show Option.map _ (if n = s.nextRequest then _ else _) = if n = s.nextRequest then _ else _
  split <;> rfl

theorem view_setCall (n : RequestId) (call : Option ReadyCall) (s : Scheduler) :
    (s.setCall n call).view =
      { s.view with calls := Function.update s.view.calls n (call.map answerOf) } := by
  unfold view setCall
  rw [← map_update (Option.map answerOf)]

theorem view_setCall_same {n : RequestId} {call : Option ReadyCall}
    (h : call.map answerOf = (s.calls n).map answerOf) : (s.setCall n call).view = s.view := by
  rw [view_setCall, h]
  show ({ s.view with calls := Function.update s.view.calls n (s.view.calls n) } :
    Dispatch.Pool ..) = _
  rw [Function.update_eq_self]

theorem push_perm (e : QueueEntry) (queue : List QueueEntry) :
    (push e queue).Perm (e :: queue) := by
  induction queue with
  | nil => exact List.Perm.refl _
  | cons a rest ih =>
    unfold push
    split
    · exact List.Perm.refl _
    · exact (ih.cons a).trans (List.Perm.swap e a rest)

theorem live_iff {e : QueueEntry} : e.live s.tasks = true ↔ s.view.Live (entry e) := by
  unfold QueueEntry.live Dispatch.Pool.Live
  show _ ↔ (s.tasks e.task).completed = false ∧ (s.tasks e.task).started = false ∧
    e.generation = (s.tasks e.task).generation
  simp [and_assoc]

theorem popLive_some {queue rest : List QueueEntry} {t : TaskId} {tasks : TaskId → Task}
    (h : popLive tasks queue = some (t, rest)) : ∃ before e, queue = before ++ e :: rest ∧
      e.task = t ∧ e.live tasks = true ∧ ∀ x ∈ before, ¬ x.live tasks = true := by
  induction queue with
  | nil => cases h
  | cons a queue ih =>
    unfold popLive at h
    split at h
    · next hl =>
      obtain ⟨rfl, rfl⟩ := Prod.mk.inj (Option.some.inj h)
      exact ⟨[], a, rfl, rfl, hl, fun x hx => by cases hx⟩
    · next hl =>
      obtain ⟨before, e, rfl, ht, hlive, hstale⟩ := ih h
      refine ⟨a :: before, e, rfl, ht, hlive, fun x hx => ?_⟩
      rcases List.mem_cons.mp hx with rfl | hx
      · exact hl
      · exact hstale x hx

theorem popLive_none {queue : List QueueEntry} {tasks : TaskId → Task}
    (h : popLive tasks queue = none) : ∀ x ∈ queue, ¬ x.live tasks = true := by
  induction queue with
  | nil => exact fun x hx => by cases hx
  | cons a queue ih =>
    unfold popLive at h
    split at h
    · cases h
    · next hl =>
      intro x hx
      rcases List.mem_cons.mp hx with rfl | hx
      · exact hl
      · exact ih h x hx

/-! ## operations that the pool does not see -/

theorem view_count (f : PrefetchCounters → PrefetchCounters) (s : Scheduler) :
    (s.count cfg f).view = s.view := by
  unfold count
  split <;> rfl

theorem view_of_observed {k : ExpertKey} {s₁ : Scheduler} (h : Observed k s s₁) :
    s₁.view = s.view := by
  have htickets : ∀ t, ticket (s₁.tasks t) = ticket (s.tasks t) := h.task ticket fun _ => rfl
  have hview : s₁.view = { s.view with tickets := fun t => ticket (s₁.tasks t) } := by
    rw [h.same]
    rfl
  rw [hview, funext htickets]
  rfl

/-- a call of the state machine, whatever it answers -/
theorem wp_onStates_any {α : Type} {x : States.Code α} {Q : Except Exn α → Scheduler → Prop}
    (h : ∀ r states, Q r (s.setStates states)) : wp (onStates x) Q s := wp_onStates.mpr (h _ _)

/-! ## every step is a chain of steps of the pool -/

/-- the pool makes finitely many steps from `s` to `s'` -/
def Moves (cfg : SchedulerConfig) (s s' : Scheduler) : Prop :=
  Relation.ReflTransGen (Dispatch.Step cfg.workerCount) s.view s'.view

theorem Moves.stay (h : s'.view = s.view) : Moves cfg s s' := by
  unfold Moves
  rw [h]

theorem Moves.step {p : Dispatch.Pool ExpertKey (TransferPriority × ℚ) ScheduleResult}
    (h : Dispatch.Step cfg.workerCount s.view p) (hp : s'.view = p) : Moves cfg s s' := by
  unfold Moves
  rw [hp]
  exact Relation.ReflTransGen.single h

/-- code that leaves the pool alone -/
def Quiet {α : Type} (x : Code α) (s : Scheduler) : Prop := wp x (fun _ s' => s'.view = s.view) s

theorem Quiet.answer {x : Code Reply} (h : Quiet x s) : Moves cfg s (s.answer x) := by
  refine answer_of (P := fun s' => Moves cfg s s') (wp_mono h fun r s' h => ?_)
  cases r <;> exact Moves.stay h

theorem Quiet.thread {x : Code Unit} (h : Quiet x s) : Moves cfg s (s.thread x) := by
  refine thread_of (P := fun s' => Moves cfg s s') (wp_mono h fun r s' h => ?_)
  cases r <;> exact Moves.stay h

theorem quiet_update {f : Scheduler → Scheduler} (h : (f s).view = s.view) : Quiet (update f) s := h

theorem quiet_onStates {α : Type} (x : States.Code α) : Quiet (onStates x) s := rfl

theorem quiet_bind {α β : Type} {x : Code α} {k : α → Code β} (h : Quiet x s)
    (hk : ∀ a s', s'.view = s.view → Quiet (k a) s') : Quiet (x >>= k) s := by
  refine wp_seq h (fun a s' hs => ?_) fun e s' hs => hs
  exact wp_mono (hk a s' hs) fun r s'' h => h.trans hs

theorem quiet_ite {α : Type} {c : Prop} [Decidable c] {x y : Code α} (hx : Quiet x s)
    (hy : Quiet y s) : Quiet (if c then x else y) s := by
  split <;> assumption

theorem quiet_read {α : Type} {k : Scheduler → Code α} (h : Quiet (k s) s) :
    Quiet (read >>= k) s := by
  unfold Quiet
  rw [wp_bind]
  exact h

theorem quiet_tryCatch {α : Type} {x : Code α} {f : Exn → Code α} (h : Quiet x s)
    (hf : ∀ e s', s'.view = s.view → Quiet (f e) s') : Quiet (tryCatch x f) s := by
  refine wp_catch h (fun _ _ hs => hs) fun e s' hs => ?_
  exact wp_mono (hf e s' hs) fun r s'' h => h.trans hs

theorem quiet_onExpert (x : States.Code Unit) : Quiet (onExpert x) s :=
  quiet_bind (quiet_onStates x) fun _ _ _ => rfl

/-- a worker goes on with the task it holds -/
theorem quiet_goto {w : WorkerId} {t : TaskId} {pc : WorkerPc} (hw : s.view.workers w = .holds t)
    (hpc : stage pc = .holds t) : Quiet (update (goto w pc)) s :=
  view_goto_same ((show stage (s.workers w) = .holds t from hw).trans hpc.symm)

theorem quiet_guarded {leave : Scheduler → Scheduler} {w : WorkerId} {t : TaskId} {x : Code Unit}
    (hw : s.view.workers w = .holds t) (hleave : ∀ s, (leave s).view = s.view) (h : Quiet x s) :
    Quiet (guarded leave w t x) s := by
  refine quiet_tryCatch h fun e s₁ hv => ?_
  have hw₁ : (leave s₁).view.workers w = .holds t := by rw [hleave, hv, hw]
  have hgoto : ((leave s₁).goto w (.failing t (failure e))).view = (leave s₁).view :=
    view_goto_same hw₁
  exact quiet_update (hgoto.trans (hleave s₁))

/-! ### schedule -/

theorem view_enqueueEntry (t : TaskId) (task : Task) (s : Scheduler) :
    (s.enqueueEntry t task).view = { s.view with
      queue := (push ⟨t, task.request.priority, s.nextSequence, task.generation,
        task.request.priorityScore⟩ s.queue).map entry } := rfl

theorem push_entry_perm (e : QueueEntry) (queue : List QueueEntry) :
    ((push e queue).map entry).Perm (entry e :: queue.map entry) := (push_perm e queue).map entry

theorem moves_enqueue {request : ScheduleRequest} {callback : Bool}
    (hs : s.stopping = false) (hp : s.pendingByExpert request.key = none) :
    Moves cfg s (enqueue request callback s).2 := by
  have hq := push_entry_perm
    ⟨s.nextTask, request.priority, s.nextSequence, 0, request.priorityScore⟩ s.queue
  refine Moves.step (@Dispatch.Step.accept _ _ _ _ _ s.view _ _ callback _ hp hs hq) ?_
  show (enqueueEntry _ _ _).view = _
  rw [view_enqueueEntry, view_setTask, view_accept]
  rfl

/-- a pending task that gained priority goes into the queue again -/
theorem moves_requeue {request : ScheduleRequest} {t : TaskId} {k : ExpertKey}
    (hs : s.stopping = false) (hp : s.pendingByExpert k = some t)
    (ht : (s.tasks t).started = false) :
    Moves cfg s ((s.setTask t (upgraded (s.tasks t) request)).enqueueEntry t
      (upgraded (s.tasks t) request)) := by
  let task := upgraded (s.tasks t) request
  have hq := push_entry_perm ⟨t, task.request.priority, s.nextSequence, (s.tasks t).generation + 1,
    task.request.priorityScore⟩ s.queue
  refine Moves.step (@Dispatch.Step.requeue _ _ _ _ _ s.view k t _ _ hp hs ht hq) ?_
  show ({ (s.setTask t task).view with queue := _ } : Dispatch.Pool ..) = _
  rw [view_setTask]
  rfl

theorem moves_coalesce {request : ScheduleRequest} {callback : Bool} {t : TaskId}
    (hs : s.stopping = false) (hp : s.pendingByExpert request.key = some t) :
    Moves cfg s (coalesce t request callback s).2 := by
  let task := joined (s.tasks t) s.nextRequest request callback
  let s₁ := (s.accept request (.task t) callback).setTask t task
  have hjoin : Moves cfg s s₁ := by
    refine Moves.step (@Dispatch.Step.join _ _ _ _ _ s.view _ _ callback hp) ?_
    rw [view_setTask, view_accept]
    rfl
  show Moves cfg s (if upgrades task request = true then _ else _)
  split
  · next hu =>
    have htask : s₁.tasks t = task := Function.update_self ..
    have hstarted : (s₁.tasks t).started = false := by
      rw [htask]
      unfold upgrades at hu
      simpa using (Bool.and_eq_true_iff.mp hu).2
    have hrequeue := @moves_requeue cfg s₁ request t _ hs hp hstarted
    rw [htask] at hrequeue
    have htwice : s₁.setTask t (upgraded task request) =
        (s.accept request (.task t) callback).setTask t (upgraded task request) := by
      unfold setTask
      exact congrArg (fun tasks => { s.accept request (.task t) callback with tasks := tasks })
        (Function.update_idem ..)
    rw [htwice] at hrequeue
    exact hjoin.trans hrequeue
  · exact hjoin

theorem moves_acceptReady {request : ScheduleRequest} {callback : Bool} :
    Moves cfg s (acceptReady request callback s).2 := by
  refine Moves.step (@Dispatch.Step.acceptOwn _ _ _ _ _ s.view callback) ?_
  show (setCall _ _ _).view = _
  rw [view_setCall, view_accept]
  by_cases h : request.isPrefetch = true
  · rw [if_pos h]
    rfl
  · rw [if_neg h]
    rfl

/-- the same steps, from a state of which the pool sees nothing new -/
theorem Moves.of_view {s₁ : Scheduler} (h : Moves cfg s₁ s') (hv : s₁.view = s.view) :
    Moves cfg s s' := by
  unfold Moves at h ⊢
  rw [← hv]
  exact h

theorem moves_schedule (request : ScheduleRequest) (callback : Bool) :
    Moves cfg s (s.answer (schedule cfg request callback)) := by
  have hstop : ∀ {s₁ : Scheduler}, s₁.view = s.view → s.stopping = false → s₁.stopping = false :=
    fun hv hs => (congrArg Dispatch.Pool.stopping hv).trans hs
  have hpending : ∀ {s₁ : Scheduler}, s₁.view = s.view → s₁.pendingByExpert = s.pendingByExpert :=
    fun hv => congrArg Dispatch.Pool.pending hv
  refine answer_of (wp_schedule ?_ ?_ ?_ ?_)
  · intro s₁ e ho _ _ _
    exact moves_acceptReady.of_view (view_of_observed ho)
  · intro s₁ t ho hs hp _
    have hv := view_of_observed ho
    have hm := @moves_coalesce cfg s₁ request callback t (hstop hv hs) (by rw [hpending hv, hp])
    exact hm.of_view hv
  · rintro s₁ e ho hs - hp - - s₂ rfl
    have hv := view_of_observed ho
    have hm := @moves_enqueue cfg (s₁.setStates (s₁.states.set request.key (begun request e)))
      request callback (hstop hv hs) ((congrFun (hpending hv) _).trans hp)
    exact hm.of_view hv
  · intro s₁ x ho
    have hv := view_of_observed ho
    exact Moves.stay hv

/-! ### readyResult and the workers -/

theorem moves_readyResult (hrec : Dispatch.Recorded s.view) {n : RequestId} {call : ReadyCall}
    {accepted : Accepted} (hc : s.calls n = some call) (hr : s.requests n = some accepted) :
    Moves cfg s (s.thread (readyResult n accepted call)) := by
  have hcall : s.view.calls n = some (answerOf call) := by
    show (s.calls n).map answerOf = _
    rw [hc]
    rfl
  have hrequest : s.view.requests n = some (promise accepted.future, accepted.callback) := by
    show (s.requests n).map _ = _
    rw [hr]
    rfl
  cases call with
  | looking =>
    exact Quiet.thread (quiet_update (view_setCall_same (by rw [hc]; rfl)))
  | looked transfer =>
    refine Quiet.thread (quiet_bind (quiet_onStates _) fun e s₁ hv => quiet_update ?_)
    refine view_setCall_same ?_
    exact (congrFun (congrArg Dispatch.Pool.calls hv) n).trans hcall |>.symm
  | answering result =>
    obtain ⟨callback, hown⟩ := hrec.call n _ hcall
    have hcallback : callback = accepted.callback := by
      rw [hrequest] at hown
      exact (congrArg Prod.snd (Option.some.inj hown)).symm
    subst hcallback
    refine Moves.step (Dispatch.Step.answer (r := result) hcall hown) ?_
    show (setCall n _ (if accepted.callback = true then _ else _)).view = _
    split <;> exact view_setCall ..
  | answered result =>
    refine Moves.step (Dispatch.Step.settleOwn hcall) ?_
    exact view_setCall ..

theorem moves_pop {w : WorkerId} (hw : w < cfg.workerCount) (hi : s.workers w = .waiting) :
    Moves cfg s (s.pop w) := by
  have hidle : s.view.workers w = .idle := by
    show stage (s.workers w) = _
    rw [hi]
    rfl
  unfold pop
  split
  · next h =>
    have hq : s.view.queue = [] := by
      show s.queue.map entry = []
      rw [h.2]
      rfl
    exact Moves.step (Dispatch.Step.exit hw hidle h.1 hq) (view_goto ..)
  · cases hp : popLive s.tasks s.queue with
    | some found =>
      obtain ⟨t, rest⟩ := found
      obtain ⟨before, e, hq, rfl, hlive, hstale⟩ := popLive_some hp
      have hq' : s.view.queue = before.map entry ++ entry e :: rest.map entry := by
        show s.queue.map entry = _
        rw [hq, List.map_append]
        rfl
      refine Moves.step (Dispatch.Step.claim hw hidle hq' ?_ (live_iff.mp hlive)) ?_
      · intro x hx
        obtain ⟨y, hy, rfl⟩ := List.mem_map.mp hx
        exact fun hl => hstale y hy (live_iff.mpr hl)
      · let s₁ : Scheduler := { s with queue := rest }
        have hv : ((s₁.setTask e.task { s.tasks e.task with started := true }).goto w
            (.popped e.task)).view = _ := view_goto ..
        rw [view_setTask] at hv
        exact congrArg (fun p => p.note (.started e.task w)) hv
    | none =>
      have hdrain : Moves cfg s { s with queue := [] } := by
        refine Moves.step (Dispatch.Step.drain fun x hx => ?_) rfl
        obtain ⟨y, hy, rfl⟩ := List.mem_map.mp hx
        exact fun hl => popLive_none hp y hy (live_iff.mpr hl)
      refine hdrain.trans ?_
      show Moves cfg _ (goto w (if s.stopping = true then _ else _) _)
      split
      · next hs => exact Moves.step (Dispatch.Step.exit hw hidle hs rfl) (view_goto ..)
      · exact Moves.stay (view_goto_same (by rw [hi]))

section

variable {w : WorkerId} {t : TaskId}

theorem quiet_launch (hw : s.view.workers w = .holds t) : Quiet (launch w t) s := by
  refine quiet_read (quiet_ite (quiet_goto hw rfl) (quiet_bind ?_ fun _ s₁ hv => ?_))
  · exact quiet_ite rfl (quiet_onStates _)
  · exact quiet_goto (by rw [hv, hw]) rfl

theorem view_awaitTransfer (hw : s.view.workers w = .holds t) (outcome : TransferOutcome) :
    (s.awaitTransfer w t outcome).view = s.view := by
  unfold awaitTransfer
  cases outcome with
  | error e => exact quiet_goto hw rfl
  | ok r =>
    show (if _ then _ else _ : Scheduler).view = _
    split
    · exact quiet_goto hw rfl
    · exact quiet_goto hw (show stage (.transferred t r) = _ from rfl)

theorem quiet_finishTransfer (hw : s.view.workers w = .holds t) (r : TransferResult) :
    Quiet (finishTransfer w t r) s :=
  quiet_read (quiet_bind (quiet_onStates _) fun _ _ hv => quiet_goto (by rw [hv, hw]) rfl)

theorem view_record (hw : s.view.workers w = .holds t) (r : TransferResult) :
    (s.record w t r).view = s.view := by
  unfold record
  show (if _ then _ else _ : Scheduler).view = _
  split
  · exact view_goto_same hw
  · exact view_goto_same hw

theorem quiet_drop (c : ExpertKey) : Quiet (drop cfg t c) s := by
  refine quiet_bind rfl fun _ s₁ h₁ => quiet_bind rfl fun _ s₂ h₂ => quiet_read ?_
  exact quiet_bind (quiet_ite (quiet_onStates _) rfl) fun _ s₃ _ => quiet_update (view_count ..)

theorem quiet_trim (hw : s.view.workers w = .holds t) (r : TransferResult) (cachedBytes : Nat)
    (c : ExpertKey) (rest : List ExpertKey) :
    Quiet (trim cfg w t r cachedBytes c rest) s := by
  refine quiet_read ?_
  cases s.residentTransfers c with
  | none => exact quiet_goto hw rfl
  | some found =>
    refine quiet_ite (quiet_goto hw rfl) (quiet_bind (quiet_drop c) fun _ s₁ hv => ?_)
    exact quiet_goto (by rw [hv, hw]) rfl

theorem quiet_succeed (hw : s.view.workers w = .holds t) (r : TransferResult) :
    Quiet (succeed w t r) s :=
  quiet_read (quiet_bind (quiet_onStates _) fun _ _ hv => quiet_goto (by rw [hv, hw]) rfl)

theorem quiet_fail (hw : s.view.workers w = .holds t) (result : ScheduleResult) :
    Quiet (fail w t result) s := by
  refine quiet_read (quiet_bind (quiet_onStates _) fun _ s₁ hv => quiet_update ?_)
  have hw₁ : s₁.view.workers w = .holds t := by rw [hv, hw]
  exact quiet_goto hw₁ (show stage (.failed t result) = _ from rfl)

theorem quiet_noteFailure (hw : s.view.workers w = .holds t) (result : ScheduleResult) :
    Quiet (noteFailure w t result) s :=
  quiet_read (quiet_bind (quiet_onStates _) fun _ _ hv => quiet_goto (by rw [hv, hw]) rfl)

theorem moves_complete (hl : Dispatch.Linked cfg.workerCount s.view)
    (hw : s.view.workers w = .holds t) (result : ScheduleResult) :
    Moves cfg s (s.complete w t result) := by
  obtain ⟨ht, -, hc⟩ := hl.holds w t hw
  have hpending : s.pendingByExpert (s.tasks t).key = some t := hl.owned t ht hc
  unfold complete
  rw [if_neg (by rw [show (s.tasks t).completed = false from hc]; simp), if_pos hpending]
  refine Moves.step (@Dispatch.Step.deliver _ _ _ _ _ s.view w t result hw) ?_
  rw [view_goto, view_setTask]
  rfl

theorem moves_notify {result : ScheduleResult} {callbacks : List RequestId}
    (hw : s.workers w = .notifying t result callbacks) :
    Moves cfg s (s.notify w t result callbacks) := by
  have hview : s.view.workers w = .delivers t result callbacks := congrArg stage hw
  cases callbacks with
  | nil =>
    have hv : (s.goto w .waiting).view = _ := view_goto ..
    exact Moves.step (Dispatch.Step.settle hview)
      (congrArg (fun p => p.note (.settled (.shared t) result)) hv)
  | cons n rest =>
    have hv : (s.goto w (.notifying t result rest)).view = _ := view_goto ..
    exact Moves.step (Dispatch.Step.call hview)
      (congrArg (fun p => p.note (.called n result)) hv)

theorem moves_work (hl : Dispatch.Linked cfg.workerCount s.view) (hn : w < cfg.workerCount)
    (outcome : TransferOutcome) : Moves cfg s (s.thread (work cfg w outcome (s.workers w))) := by
  have holds : ∀ {t : TaskId} {pc : WorkerPc}, s.workers w = pc → stage pc = .holds t →
      s.view.workers w = .holds t := fun h hs => (congrArg stage h).trans hs
  have hunlock : ∀ s : Scheduler, s.unlock.view = s.view := fun _ => rfl
  cases hpc : s.workers w with
  | waiting => exact moves_pop hn hpc
  | popped t => exact (quiet_launch (holds hpc rfl)).thread
  | loading t => exact (quiet_update (view_awaitTransfer (holds hpc rfl) outcome)).thread
  | transferred t r =>
    have hw := holds hpc rfl
    exact (quiet_guarded hw (fun _ => rfl) (quiet_finishTransfer hw r)).thread
  | ready t r => exact (quiet_update (view_record (holds hpc rfl) r)).thread
  | trimming t r cachedBytes candidates =>
    have hw := holds hpc rfl
    cases candidates with
    | nil =>
      have hq : Quiet (update (goto w (.recorded t r))) s := quiet_goto hw rfl
      exact Quiet.thread (x := work cfg w outcome (.trimming t r cachedBytes [])) hq
    | cons c rest => exact (quiet_guarded hw hunlock (quiet_trim hw r cachedBytes c rest)).thread
  | recorded t r =>
    have hw := holds hpc rfl
    exact (quiet_guarded hw (fun _ => rfl) (quiet_succeed hw r)).thread
  | failing t result => exact (quiet_fail (holds hpc rfl) result).thread
  | failed t result => exact (quiet_noteFailure (holds hpc rfl) result).thread
  | completing t result => exact moves_complete hl (holds hpc rfl) result
  | notifying t result callbacks => exact moves_notify hpc
  | exited => exact Moves.stay rfl

end

/-! ### the other operations -/

theorem quiet_acknowledgeResidency (k : ExpertKey) (location : MemoryTier) :
    Quiet (acknowledgeResidency cfg k location) s := by
  refine quiet_read (quiet_bind ?_ fun _ s₁ _ => quiet_bind rfl fun _ s₂ _ => ?_)
  · unfold throwIf
    exact quiet_ite rfl rfl
  · refine quiet_bind (quiet_update ?_) fun _ s₃ _ => quiet_bind (quiet_onStates _) fun _ _ _ => rfl
    split
    · exact view_count ..
    · rfl

theorem quiet_reconcileResidency (k : ExpertKey) (location : MemoryTier) :
    Quiet (reconcileResidency k location) s :=
  quiet_read (quiet_bind (quiet_ite (quiet_onStates _) rfl) fun _ _ _ => rfl)

theorem quiet_expire (layerId : LayerId) (wasted : Nat) (remaining : List ExpertKey) :
    Quiet (expire cfg layerId wasted remaining) s := by
  cases remaining with
  | nil => exact quiet_update (view_count ..)
  | cons k rest =>
    refine quiet_tryCatch (quiet_ite ?_ rfl) fun e s₁ _ => rfl
    exact quiet_bind rfl fun _ s₁ _ => quiet_bind (quiet_onStates _) fun _ s₂ _ =>
      quiet_bind rfl fun _ s₃ _ => rfl

theorem view_cancel (n : RequestId) (s : Scheduler) : (s.cancel n).view = s.view := by
  unfold cancel
  split <;> rfl

theorem moves_shutdown : Moves cfg s s.shutdown := by
  unfold shutdown
  split
  · exact Moves.stay rfl
  · exact Moves.step Dispatch.Step.stop rfl

theorem step_eq {a : Action} (h : step cfg a s = some s') :
    s.terminated = false ∧ s.allows cfg a = true ∧ s' = s.perform cfg a := by
  unfold step at h
  split at h
  · next hs => exact ⟨hs.1, hs.2, (Option.some.inj h).symm⟩
  · cases h

/-- a step of the scheduler is a chain of steps of its pool -/
theorem step_view {a : Action} (hl : Dispatch.Linked cfg.workerCount s.view)
    (hr : Dispatch.Recorded s.view) (h : step cfg a s = some s') : Moves cfg s s' := by
  obtain ⟨-, hallows, rfl⟩ := step_eq h
  cases a with
  | registerExpert k location => exact (quiet_onExpert _).answer
  | schedule request callback => exact moves_schedule request callback
  | prefetch prediction callback => exact moves_schedule (prefetchRequest cfg prediction) callback
  | readyResult n =>
    dsimp only [perform]
    cases hc : s.calls n with
    | none => exact Moves.stay rfl
    | some call =>
      cases hq : s.requests n with
      | none => exact Moves.stay rfl
      | some accepted => exact moves_readyResult hr hc hq
  | cancel n => exact Moves.stay (view_cancel n s)
  | acquire k => exact (quiet_onExpert _).answer
  | release k => exact (quiet_onExpert _).answer
  | expirePrefetchesBefore layerId order => exact Moves.stay rfl
  | expireNext =>
    dsimp only [perform]
    split
    · exact (quiet_expire ..).thread
    · exact Moves.stay rfl
  | cachedTransfer k => exact Quiet.answer (x := Scheduler.cachedTransfer k) rfl
  | acknowledgeResidency k location => exact (quiet_acknowledgeResidency k location).answer
  | reconcileResidency k location => exact (quiet_reconcileResidency k location).answer
  | shutdown => exact moves_shutdown
  | join => exact Moves.stay rfl
  | work w outcome =>
    have hn : w < cfg.workerCount := by
      have hw : (w < cfg.workerCount ∧ s.canWork w outcome = true : Bool) = true := hallows
      simp only [Bool.decide_and, Bool.and_eq_true, decide_eq_true_eq] at hw
      exact hw.1
    exact moves_work hl hn outcome

/-! ## every reachable state -/

/-- the pool's two invariants -/
def Dispatched (cfg : SchedulerConfig) (s : Scheduler) : Prop :=
  Dispatch.Linked cfg.workerCount s.view ∧ Dispatch.Recorded s.view

theorem dispatched_of_moves (h : Dispatched cfg s) (hm : Moves cfg s s') : Dispatched cfg s' := by
  unfold Moves at hm
  have hpool : ∀ p, Relation.ReflTransGen (Dispatch.Step cfg.workerCount) s.view p →
      Dispatch.Linked cfg.workerCount p ∧ Dispatch.Recorded p := by
    intro p hp
    induction hp with
    | refl => exact h
    | tail _ hstep ih => exact ⟨hstep.linked ih.1, hstep.recorded ih.1 ih.2⟩
  exact hpool _ hm

theorem step_dispatched {a : Action} (h : Dispatched cfg s) (hs : step cfg a s = some s') :
    Dispatched cfg s' := dispatched_of_moves h (step_view h.1 h.2 hs)

theorem new_dispatched : Dispatched cfg {} :=
  ⟨Dispatch.linked_new _, Dispatch.recorded_new _⟩

theorem run_dispatched {as : List Action} (h : run cfg as = some s) : Dispatched cfg s :=
  Runs.run_invariant (fun _ _ _ hs h => step_dispatched h hs) new_dispatched h

end HyperMoE.Scheduler
