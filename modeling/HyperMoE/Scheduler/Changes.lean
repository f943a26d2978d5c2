import HyperMoE.Scheduler.Dispatch

/-!
# What a step changes

The part of the state that is about experts and buffers, and every way in which a step can change
it.  The invariants of the next modules go through the cases of `Change` and never unfold a step.

* `Core`          records, pending tasks, retained transfers, threads, and what was said;
* `Tracked`       the record of an expert agrees with where its pending task is;
* `Change`        what a step can do to the core;
* `step_change`   a step from a tracked state is a change, and no exception leaves a thread;
* `Says`, `Writes`, `Next`   the events, records and places of workers that a change can bring.
-/

namespace HyperMoE

open Lib Lib.Fallible

/-! ## the core -/

/-- what of a task's request never changes -/
structure Target where
  key : ExpertKey
  destination : MemoryTier
  eviction : Bool

def Task.target (task : Task) : Target where
  key := task.key
  destination := task.request.destination
  eviction := task.request.eviction

/-- the events that say something about experts, results and the end -/
def Event.noted : Event → Bool
  | .replied _ => false
  | .threw _ => false
  | .started _ _ => false
  | .shutdownReturned joined => joined
  | _ => true

structure Core where
  states : States
  targets : TaskId → Target
  nextTask : TaskId
  pendingByExpert : ExpertKey → Option TaskId
  residentTransfers : ExpertKey → Option TransferResult
  workers : WorkerId → WorkerPc
  lock : Option Holder
  requests : RequestId → Option Accepted
  calls : RequestId → Option ReadyCall
  history : List Event

namespace Scheduler

variable {cfg : SchedulerConfig} {s s' : Scheduler}

def core (s : Scheduler) : Core where
  states := s.states
  targets t := (s.tasks t).target
  nextTask := s.nextTask
  pendingByExpert := s.pendingByExpert
  residentTransfers := s.residentTransfers
  workers := s.workers
  lock := s.lock
  requests := s.requests
  calls := s.calls
  history := s.history.filter Event.noted

/-! ## records and tasks -/

/-- no task is at work on the expert -/
def idle (x : ExpertLifecycleState) : Prop := x = .Ready ∨ x = .InUse ∨ x = .Failed

def usable (x : ExpertLifecycleState) : Prop := x = .Ready ∨ x = .InUse

instance (x : ExpertLifecycleState) : Decidable (usable x) := by
  unfold usable
  infer_instance

/-- `reconcile` accepts the record -/
def reconcilable (x : ExpertLifecycleState) : Prop :=
  x ≠ .InUse ∧ x ≠ .Loading ∧ x ≠ .Queued ∧ x ≠ .Evicting

instance (x : ExpertLifecycleState) : Decidable (reconcilable x) := by
  unfold reconcilable
  infer_instance

/-- the record of an expert whose task waits -/
def waiting (eviction : Bool) : ExpertLifecycleState := if eviction then .Evicting else .Queued

/-- the record of an expert whose transfer is under way -/
def moving (eviction : Bool) : ExpertLifecycleState := if eviction then .Evicting else .Loading

/-- the record of an expert whose task a worker holds -/
def Agrees (eviction : Bool) (x : ExpertLifecycleState) : WorkerPc → Prop
  | .popped _ => x = waiting eviction
  | .loading _ => x = moving eviction
  | .transferred _ _ => x = moving eviction
  | .ready _ _ => usable x
  | .trimming _ _ _ _ => usable x
  | .recorded _ _ => usable x
  | .failing _ result => result.success = false ∧ x ≠ .Requested
  | .failed _ result => result.success = false ∧ idle x
  | .completing _ _ => idle x
  | _ => True

def trims : WorkerPc → Bool
  | .trimming _ _ _ _ => true
  | _ => false

/-- the worker that bounds speculative ownership is the one that has `mutex_` for it -/
def Locks (lock : Option Holder) (workers : WorkerId → WorkerPc) : Prop :=
  ∀ w, lock = some (.worker w) ↔ trims (workers w) = true

structure Tracked (c : Core) : Prop where
  pending : ∀ k t, c.pendingByExpert k = some t → ∃ e, c.states k = some e
  accepted : ∀ n a, c.requests n = some a → ∃ e, c.states a.request.key = some e
  rest : ∀ k e, c.states k = some e → c.pendingByExpert k = none → idle e.state
  waits : ∀ k t e, c.pendingByExpert k = some t → c.states k = some e →
    (∀ w, (stage (c.workers w)).task ≠ some t) → e.state = waiting (c.targets t).eviction
  held : ∀ w t e, stage (c.workers w) = .holds t → c.states (c.targets t).key = some e →
    Agrees (c.targets t).eviction e.state (c.workers w)
  locked : Locks c.lock c.workers

/-! ## changes -/

/-- the action of a thread that is in the middle of its work -/
def Action.continues (s : Scheduler) : Action → Bool
  | .work w _ => s.workers w ≠ .waiting
  | .readyResult n => (s.requests n).isSome
  | .expireNext => true
  | _ => false

/-- what a step can do to the core -/
inductive Change (cfg : SchedulerConfig) (s : Scheduler) : Action → Core → Prop where
  | same {a : Action} (ha : a.continues s = false) : Change cfg s a s.core
  | register {k : ExpertKey} {location : MemoryTier} (hn : s.states k = none) :
      Change cfg s (.registerExpert k location) { s.core with
        states := s.states.set k { layerId := k.1, id := k.2, currentLocation := location,
                                   targetLocation := location } }
  | acquire {k : ExpertKey} {e : ExpertState} (he : s.states k = some e) (hs : e.state = .Ready) :
      Change cfg s (.acquire k) { s.core with
        states := s.states.set k { e with state := .InUse, usageCount := e.usageCount + 1 } }
  | release {k : ExpertKey} {e : ExpertState} (he : s.states k = some e) (hs : e.state = .InUse) :
      Change cfg s (.release k) { s.core with
        states := s.states.set k { e with state := .Ready } }
  | reconcile {k : ExpertKey} {location : MemoryTier} {e : ExpertState}
      (he : s.states k = some e) (hr : reconcilable e.state) :
      Change cfg s (.reconcileResidency k location) { s.core with
        states := s.states.set k (e.settled location) }
  | acknowledge {k : ExpertKey} {location : MemoryTier} {e : ExpertState}
      (he : s.states k = some e) (hr : reconcilable e.state) :
      Change cfg s (.acknowledgeResidency k location) { s.core with
        states := s.states.set k (e.settled location)
        residentTransfers := Function.update s.residentTransfers k none }
  | acknowledgeRefused {k : ExpertKey} {location : MemoryTier} :
      Change cfg s (.acknowledgeResidency k location) { s.core with
        residentTransfers := Function.update s.residentTransfers k none }
  | expireBegins {layerId : LayerId} {order : List ExpertKey} (hl : s.lock = none) :
      Change cfg s (.expirePrefetchesBefore layerId order) { s.core with
        lock := some (.expiring layerId order 0) }
  | expireKeeps {layerId : LayerId} {k : ExpertKey} {rest : List ExpertKey} {wasted : Nat}
      (hl : s.lock = some (.expiring layerId (k :: rest) wasted)) :
      Change cfg s .expireNext { s.core with lock := some (.expiring layerId rest wasted) }
  | expireEnds {layerId : LayerId} {wasted : Nat}
      (hl : s.lock = some (.expiring layerId [] wasted)) :
      Change cfg s .expireNext { s.core with lock := none }
  | expire {layerId : LayerId} {k : ExpertKey} {rest : List ExpertKey} {wasted : Nat}
      {e : ExpertState} (hl : s.lock = some (.expiring layerId (k :: rest) wasted))
      (hk : k.1 < layerId) (he : s.states k = some e) (hr : reconcilable e.state) :
      Change cfg s .expireNext { s.core with
        states := s.states.set k (e.settled .Nvme)
        residentTransfers := Function.update s.residentTransfers k none
        lock := some (.expiring layerId rest (wasted + 1)) }
  | expireRefused {layerId : LayerId} {k : ExpertKey} {rest : List ExpertKey} {wasted : Nat}
      (hl : s.lock = some (.expiring layerId (k :: rest) wasted)) (hk : k.1 < layerId)
      (hr : ∀ e, s.states k = some e → ¬ reconcilable e.state) :
      Change cfg s .expireNext { s.core with
        residentTransfers := Function.update s.residentTransfers k none
        lock := none }
  | answersAtOnce {a : Action} {request : ScheduleRequest} {callback : Bool} {e : ExpertState}
      (ha : a.continues s = false) (he : s.states request.key = some e)
      (hi : immediatelyReady request e (s.pendingByExpert request.key) = true) :
      Change cfg s a { s.core with
        requests := Function.update s.requests s.nextRequest
          (some ⟨request, .own s.nextRequest, callback⟩)
        calls := Function.update s.calls s.nextRequest (some .looking) }
  | join {a : Action} {request : ScheduleRequest} {callback : Bool} {t : TaskId}
      (ha : a.continues s = false) (hp : s.pendingByExpert request.key = some t)
      (hd : (s.tasks t).request.destination = request.destination) :
      Change cfg s a { s.core with
        requests := Function.update s.requests s.nextRequest
          (some ⟨request, .task t, callback⟩) }
  | enqueue {a : Action} {request : ScheduleRequest} {callback : Bool} {e : ExpertState}
      (ha : a.continues s = false) (he : s.states request.key = some e)
      (hp : s.pendingByExpert request.key = none)
      (hi : immediatelyReady request e none = false) (hc : canBegin request e) :
      Change cfg s a { s.core with
        states := s.states.set request.key (begun request e)
        targets := Function.update s.core.targets s.nextTask
          ⟨request.key, request.destination, request.eviction⟩
        nextTask := s.nextTask + 1
        pendingByExpert := Function.update s.pendingByExpert request.key (some s.nextTask)
        requests := Function.update s.requests s.nextRequest
          (some ⟨request, .task s.nextTask, callback⟩) }
  /-- the caller of an immediately ready request looks for the retained transfer -/
  | looks {n : RequestId} {a : Accepted} (ha : s.requests n = some a) (hc : s.calls n = some .looking) :
      Change cfg s (.readyResult n) { s.core with
        calls := Function.update s.calls n
          (some (.looked ((s.residentTransfers a.request.key).getD {}))) }
  | snapshots {n : RequestId} {a : Accepted} {transfer : TransferResult} {e : ExpertState}
      (ha : s.requests n = some a) (hc : s.calls n = some (.looked transfer))
      (he : s.states a.request.key = some e) :
      Change cfg s (.readyResult n) { s.core with
        calls := Function.update s.calls n
          (some (.answering { success := true, transfer := transfer, state := e })) }
  | answers {n : RequestId} {a : Accepted} {result : ScheduleResult} (ha : s.requests n = some a)
      (hc : s.calls n = some (.answering result)) :
      Change cfg s (.readyResult n) { s.core with
        calls := Function.update s.calls n (some (.answered result))
        history := if a.callback then .called n result :: s.core.history else s.core.history }
  | answered {n : RequestId} {result : ScheduleResult} (hc : s.calls n = some (.answered result)) :
      Change cfg s (.readyResult n) { s.core with
        calls := Function.update s.calls n none
        history := .resolved (.own n) result :: s.core.history }
  | returned (h : ∀ w < cfg.workerCount, s.workers w = .exited) :
      Change cfg s .join { s.core with history := .shutdownReturned true :: s.core.history }
  | claim {w : WorkerId} {outcome : TransferOutcome} {t : TaskId} (hw : s.workers w = .waiting)
      (hp : s.pendingByExpert (s.tasks t).key = some t)
      (hf : ∀ w, (stage (s.workers w)).task ≠ some t) :
      Change cfg s (.work w outcome) { s.core with
        workers := Function.update s.workers w (.popped t) }
  | exits {w : WorkerId} {outcome : TransferOutcome} (hw : s.workers w = .waiting) :
      Change cfg s (.work w outcome) { s.core with
        workers := Function.update s.workers w .exited }
  /-- cancelled before the transfer, or by it, or the transfer threw -/
  | fails {w : WorkerId} {outcome : TransferOutcome} {t : TaskId} {result : ScheduleResult}
      (hw : s.workers w = .popped t ∨ s.workers w = .loading t) (hr : result.success = false) :
      Change cfg s (.work w outcome) { s.core with
        workers := Function.update s.workers w (.failing t result) }
  | launch {w : WorkerId} {outcome : TransferOutcome} {t : TaskId} {e : ExpertState}
      (hw : s.workers w = .popped t) (he : s.states (s.tasks t).key = some e) :
      Change cfg s (.work w outcome) { s.core with
        states := s.states.set (s.tasks t).key
          { e with state := moving (s.tasks t).request.eviction }
        workers := Function.update s.workers w (.loading t) }
  | transferred {w : WorkerId} {t : TaskId} {r : TransferResult} (hw : s.workers w = .loading t)
      (ha : (s.tasks t).request.toTransfer.admits (.ok r) = true) (hs : r.status = .Completed) :
      Change cfg s (.work w (.ok r)) { s.core with
        workers := Function.update s.workers w (.transferred t r)
        history := .transferred t r :: s.core.history }
  | finish {w : WorkerId} {outcome : TransferOutcome} {t : TaskId} {r : TransferResult}
      {e : ExpertState} (hw : s.workers w = .transferred t r)
      (he : s.states (s.tasks t).key = some e) :
      Change cfg s (.work w outcome) { s.core with
        states := s.states.set (s.tasks t).key (e.settled (s.tasks t).request.destination)
        workers := Function.update s.workers w (.ready t r) }
  | record {w : WorkerId} {outcome : TransferOutcome} {t : TaskId} {r : TransferResult}
      {pc : WorkerPc} {lock : Option Holder} (hw : s.workers w = .ready t r) (hl : s.lock = none)
      (hpc : pc = .recorded t r ∧ lock = none ∨
        ∃ candidates, pc = .trimming t r 0 candidates ∧ lock = some (.worker w)) :
      Change cfg s (.work w outcome) { s.core with
        residentTransfers := Function.update s.residentTransfers (s.tasks t).key
          (if (s.tasks t).request.destination = .Nvme then none else some r)
        workers := Function.update s.workers w pc
        lock := lock }
  | keeps {w : WorkerId} {outcome : TransferOutcome} {t : TaskId} {r : TransferResult}
      {cachedBytes cachedBytes' : Nat} {c : ExpertKey} {rest : List ExpertKey}
      (hw : s.workers w = .trimming t r cachedBytes (c :: rest)) :
      Change cfg s (.work w outcome) { s.core with
        workers := Function.update s.workers w (.trimming t r cachedBytes' rest) }
  /-- the transfer that has just been recorded does not fit itself -/
  | dropsOwn {w : WorkerId} {outcome : TransferOutcome} {t : TaskId} {r found : TransferResult}
      {cachedBytes : Nat} {rest : List ExpertKey}
      (hw : s.workers w = .trimming t r cachedBytes ((s.tasks t).key :: rest))
      (hf : s.residentTransfers (s.tasks t).key = some found)
      (hx : fits cfg cachedBytes found = false) :
      Change cfg s (.work w outcome) { s.core with
        residentTransfers := Function.update s.residentTransfers (s.tasks t).key none
        workers := Function.update s.workers w (.trimming t r cachedBytes rest) }
  | drops {w : WorkerId} {outcome : TransferOutcome} {t : TaskId} {r found : TransferResult}
      {cachedBytes : Nat} {c : ExpertKey} {rest : List ExpertKey} {e : ExpertState}
      (hw : s.workers w = .trimming t r cachedBytes (c :: rest))
      (hf : s.residentTransfers c = some found) (hx : fits cfg cachedBytes found = false)
      (hc : c ≠ (s.tasks t).key) (he : s.states c = some e) (hr : reconcilable e.state) :
      Change cfg s (.work w outcome) { s.core with
        states := s.states.set c (e.settled .Nvme)
        residentTransfers := Function.update s.residentTransfers c none
        workers := Function.update s.workers w (.trimming t r cachedBytes rest) }
  | dropRefused {w : WorkerId} {outcome : TransferOutcome} {t : TaskId} {r found : TransferResult}
      {cachedBytes : Nat} {c : ExpertKey} {rest : List ExpertKey} {x : Exn}
      (hw : s.workers w = .trimming t r cachedBytes (c :: rest))
      (hf : s.residentTransfers c = some found) (hx : fits cfg cachedBytes found = false)
      (hc : c ≠ (s.tasks t).key) (hr : ∀ e, s.states c = some e → ¬ reconcilable e.state) :
      Change cfg s (.work w outcome) { s.core with
        residentTransfers := Function.update s.residentTransfers c none
        workers := Function.update s.workers w (.failing t (failure x))
        lock := none }
  | trimmed {w : WorkerId} {outcome : TransferOutcome} {t : TaskId} {r : TransferResult}
      {cachedBytes : Nat} (hw : s.workers w = .trimming t r cachedBytes []) :
      Change cfg s (.work w outcome) { s.core with
        workers := Function.update s.workers w (.recorded t r)
        lock := none }
  | succeeds {w : WorkerId} {outcome : TransferOutcome} {t : TaskId} {r : TransferResult}
      {e : ExpertState} (hw : s.workers w = .recorded t r)
      (he : s.states (s.tasks t).key = some e) :
      Change cfg s (.work w outcome) { s.core with
        workers := Function.update s.workers w
          (.completing t { success := true, transfer := r, state := e }) }
  | marksFailed {w : WorkerId} {outcome : TransferOutcome} {t : TaskId} {result : ScheduleResult}
      {e : ExpertState} (hw : s.workers w = .failing t result)
      (he : s.states (s.tasks t).key = some e) :
      Change cfg s (.work w outcome) { s.core with
        states := s.states.set (s.tasks t).key { e with state := .Failed }
        workers := Function.update s.workers w (.failed t result)
        history := .markedFailed t :: s.core.history }
  | notesFailure {w : WorkerId} {outcome : TransferOutcome} {t : TaskId} {result : ScheduleResult}
      {e : ExpertState} (hw : s.workers w = .failed t result) :
      Change cfg s (.work w outcome) { s.core with
        workers := Function.update s.workers w (.completing t { result with state := e }) }
  | completes {w : WorkerId} {outcome : TransferOutcome} {t : TaskId} {result : ScheduleResult}
      (hw : s.workers w = .completing t result) :
      Change cfg s (.work w outcome) { s.core with
        pendingByExpert := Function.update s.pendingByExpert (s.tasks t).key none
        workers := Function.update s.workers w (.notifying t result (s.tasks t).callbacks) }
  | calls {w : WorkerId} {outcome : TransferOutcome} {t : TaskId} {result : ScheduleResult}
      {n : RequestId} {rest : List RequestId}
      (hw : s.workers w = .notifying t result (n :: rest)) :
      Change cfg s (.work w outcome) { s.core with
        workers := Function.update s.workers w (.notifying t result rest)
        history := .called n result :: s.core.history }
  | resolves {w : WorkerId} {outcome : TransferOutcome} {t : TaskId} {result : ScheduleResult}
      (hw : s.workers w = .notifying t result []) :
      Change cfg s (.work w outcome) { s.core with
        workers := Function.update s.workers w .waiting
        history := .resolved (.task t) result :: s.core.history }

/-! ## the core of a changed state -/

theorem core_setTask_same {t : TaskId} {task : Task} (h : task.target = (s.tasks t).target) :
    (s.setTask t task).core = s.core := by
  have htargets : (fun t' => (Function.update s.tasks t task t').target) =
      fun t' => (s.tasks t').target := by
    rw [map_update Task.target, h]
    exact Function.update_eq_self ..
  show ({ s.core with targets := fun t' => (Function.update s.tasks t task t').target } : Core) = _
  rw [htargets]
  rfl

theorem core_of_observed {k : ExpertKey} {s₁ : Scheduler} (h : Observed k s s₁) :
    s₁.core = s.core := by
  have htargets : ∀ t, (s₁.tasks t).target = (s.tasks t).target := h.task Task.target fun _ => rfl
  have hcore : s₁.core = { s.core with targets := fun t => (s₁.tasks t).target } := by
    rw [h.same]
    rfl
  rw [hcore, funext htargets]
  rfl

theorem core_acceptReady (request : ScheduleRequest) (callback : Bool) (s : Scheduler) :
    (acceptReady request callback s).2.core = { s.core with
      requests := Function.update s.core.requests s.nextRequest
        (some ⟨request, .own s.nextRequest, callback⟩)
      calls := Function.update s.core.calls s.nextRequest (some .looking) } := by
  by_cases h : request.isPrefetch = true
  · unfold acceptReady
    rw [if_pos h]
    rfl
  · unfold acceptReady
    rw [if_neg h]
    rfl

theorem core_coalesce (t : TaskId) (request : ScheduleRequest) (callback : Bool) (s : Scheduler) :
    (coalesce t request callback s).2.core = { s.core with
      requests := Function.update s.core.requests s.nextRequest
        (some ⟨request, .task t, callback⟩) } := by
  show (putJoined t (joined (s.tasks t) s.nextRequest request callback) request _).core = _
  unfold putJoined
  split
  · exact core_setTask_same (s := s.accept request (.task t) callback) rfl
  · exact core_setTask_same (s := s.accept request (.task t) callback) rfl

theorem core_enqueue (request : ScheduleRequest) (callback : Bool) (s : Scheduler) :
    (enqueue request callback s).2.core = { s.core with
      targets := Function.update s.core.targets s.nextTask
        ⟨request.key, request.destination, request.eviction⟩
      nextTask := s.nextTask + 1
      pendingByExpert := Function.update s.core.pendingByExpert request.key (some s.nextTask)
      requests := Function.update s.core.requests s.nextRequest
        (some ⟨request, .task s.nextTask, callback⟩) } := by
  have htargets := map_update Task.target s.tasks s.nextTask (newTask s.nextRequest request callback)
  show ({ s.core with
    targets := fun t => (Function.update s.tasks s.nextTask
      (newTask s.nextRequest request callback) t).target
    nextTask := _
    pendingByExpert := _
    requests := _ } : Core) = _
  rw [htargets]
  rfl

/-- the step has changed the core, and no exception left a thread -/
def Changes (cfg : SchedulerConfig) (s : Scheduler) (a : Action) (s' : Scheduler) : Prop :=
  Change cfg s a s'.core ∧ s'.terminated = false

theorem Changes.none {a : Action} (ha : a.continues s = false) (h : s'.core = s.core)
    (ht : s'.terminated = false) : Changes cfg s a s' := by
  refine ⟨?_, ht⟩
  rw [h]
  exact .same ha

theorem Changes.of {a : Action} {c : Core} (h : Change cfg s a c) (hc : s'.core = c)
    (ht : s'.terminated = false) : Changes cfg s a s' := by
  refine ⟨?_, ht⟩
  rw [hc]
  exact h

/-! ## a step is a change -/

section

variable (ht : s.terminated = false)

include ht

/-- an operation on one record, which is there and allows it -/
theorem changes_onExpert {a : Action} (ha : a.continues s = false) {k : ExpertKey}
    {allowed : ExpertLifecycleState → Bool} {what : String} {change : ExpertState → ExpertState}
    (h : ∀ e, s.states k = some e → allowed e.state = true →
      Change cfg s a { s.core with states := s.states.set k (change e) }) :
    Changes cfg s a (s.answer (onExpert (States.transition k allowed what change))) := by
  refine answer_of ?_
  show wp (_ >>= _) _ s
  rw [wp_bind]
  apply wp_onRecord
  · exact fun e he hs => .of (h e he hs) rfl ht
  · exact fun _ x => .none ha rfl ht

theorem changes_registerExpert (k : ExpertKey) (location : MemoryTier) :
    Changes cfg s (.registerExpert k location)
      (s.answer (onExpert (States.registerExpert k location))) := by
  refine answer_of ?_
  show wp (_ >>= _) _ s
  rw [wp_bind, wp_onStates]
  refine States.wp_registerExpert.mpr ?_
  split
  · exact .none rfl rfl ht
  · next hn => exact .of (.register (by simpa using hn)) rfl ht

theorem changes_schedule {a : Action} (ha : a.continues s = false) (request : ScheduleRequest) (callback : Bool) :
    Changes cfg s a (s.answer (schedule cfg request callback)) := by
  have hsame : ∀ {s₁ : Scheduler}, Observed request.key s s₁ →
      s₁.nextRequest = s.nextRequest ∧ s₁.nextTask = s.nextTask ∧ s₁.terminated = false := by
    intro s₁ ho
    rw [ho.same]
    exact ⟨rfl, rfl, ht⟩
  refine answer_of (wp_schedule ?_ ?_ ?_ ?_)
  · intro s₁ e ho hs he hi
    obtain ⟨hn, -, hterm⟩ := hsame ho
    have hc := core_acceptReady request callback s₁
    rw [core_of_observed ho, hn] at hc
    have hterm' : (acceptReady request callback s₁).2.terminated = s₁.terminated := by
      show (if _ then _ else _ : Scheduler).terminated = _
      split <;> rfl
    exact .of (@Change.answersAtOnce _ _ _ _ callback _ ha he hi) hc (hterm'.trans hterm)
  · intro s₁ t ho hs hp hd
    obtain ⟨hn, -, hterm⟩ := hsame ho
    have hc := core_coalesce t request callback s₁
    rw [core_of_observed ho, hn] at hc
    have hterm' : (coalesce t request callback s₁).2.terminated = s₁.terminated := by
      show (putJoined ..).terminated = _
      unfold putJoined
      split <;> rfl
    exact .of (@Change.join _ _ _ _ callback _ ha hp hd) hc (hterm'.trans hterm)
  · intro s₁ e ho hs he hp hi hc s₂ hs₂
    obtain ⟨hn, hnt, hterm⟩ := hsame ho
    have hcore : s₂.core = { s.core with
        states := s.states.set request.key (begun request e) } := by
      have hstates : s₁.states = s.states := congrArg Core.states (core_of_observed ho)
      rw [hs₂, ← core_of_observed ho, ← hstates]
      rfl
    have hn₂ : s₂.nextRequest = s.nextRequest := by rw [hs₂]; exact hn
    have hnt₂ : s₂.nextTask = s.nextTask := by rw [hs₂]; exact hnt
    have hterm₂ : s₂.terminated = false := by rw [hs₂]; exact hterm
    have hc' := core_enqueue request callback s₂
    rw [hcore, hn₂, hnt₂] at hc'
    exact .of (@Change.enqueue _ _ _ _ callback _ ha he hp hi hc) hc' hterm₂
  · intro s₁ x ho
    have hc := core_of_observed ho
    exact .none ha hc (hsame ho).2.2

omit ht in
theorem wp_reconcile {k : ExpertKey} {location : MemoryTier}
    {Q : Except Exn Unit → Scheduler → Prop}
    (hok : ∀ e, s.states k = some e → reconcilable e.state →
      Q (.ok ()) (s.setStates (s.states.set k (e.settled location))))
    (herror : (∀ e, s.states k = some e → ¬ reconcilable e.state) → ∀ x, Q (.error x) s) :
    wp (onStates (States.reconcile k location)) Q s := by
  refine wp_onRecord (fun e he hr => hok e he ?_) fun hr => herror fun e he hc => ?_
  · unfold reconcilable
    simpa using hr
  · have hfalse := hr e he
    unfold reconcilable at hc
    simp [hc] at hfalse

theorem changes_expire (cfg : SchedulerConfig) {layerId : LayerId} {remaining : List ExpertKey}
    {wasted : Nat} (hl : s.lock = some (.expiring layerId remaining wasted)) :
    Changes cfg s .expireNext (s.thread (expire cfg layerId wasted remaining)) := by
  refine thread_of ?_
  cases remaining with
  | nil =>
    show Changes cfg s .expireNext ((s.count cfg (.wasting wasted)).log (.replied .done)).unlock
    refine .of (.expireEnds hl) ?_ ?_
    · unfold count
      split <;> rfl
    · unfold count
      split <;> exact ht
  | cons k rest =>
    show wp (tryCatch _ _) _ s
    rw [wp_tryCatch]
    unfold expireNext
    rw [wp_ite]
    split
    · next hk =>
      show wp (_ >>= _) _ s
      rw [wp_bind, wp_update]
      show wp (_ >>= _) _ (forget k s)
      rw [wp_bind]
      apply wp_reconcile
      · exact fun e he hr => .of (.expire hl hk he hr) rfl ht
      · exact fun hr x => .of (.expireRefused hl hk hr) rfl ht
    · exact .of (.expireKeeps hl) rfl ht

theorem changes_acknowledgeResidency (k : ExpertKey) (location : MemoryTier) :
    Changes cfg s (.acknowledgeResidency k location)
      (s.answer (acknowledgeResidency cfg k location)) := by
  refine answer_of ?_
  show wp (read >>= _) _ s
  rw [wp_bind, wp_read]
  show wp (_ >>= _) _ s
  rw [wp_bind, wp_throwIf]
  split
  · exact .none rfl rfl ht
  · show wp (_ >>= _) _ s
    rw [wp_bind, wp_update]
    show wp (_ >>= _) _ (forget k s)
    rw [wp_bind, wp_update]
    -- the mark of the expert and the counters are not in the core
    have hcore : ∀ s₁ : Scheduler, (if k ∈ s₁.prefetchedReady
        then (s₁.forgetPrefetched k).count cfg .hit else s₁).core = s₁.core := by
      intro s₁
      split
      · unfold count
        split <;> rfl
      · rfl
    have hterm : ∀ s₁ : Scheduler, (if k ∈ s₁.prefetchedReady
        then (s₁.forgetPrefetched k).count cfg .hit else s₁).terminated = s₁.terminated := by
      intro s₁
      split
      · unfold count
        split <;> rfl
      · rfl
    have hc := hcore (forget k s)
    have hterm' := (hterm (forget k s)).trans ht
    generalize (if k ∈ (forget k s).prefetchedReady
        then ((forget k s).forgetPrefetched k).count cfg .hit else forget k s) = s₁ at hc hterm'
    have hstates : s₁.states = s.states := congrArg Core.states hc
    show wp (_ >>= _) _ s₁
    rw [wp_bind]
    apply wp_reconcile
    · rw [hstates]
      refine fun e he hr => .of (.acknowledge he hr) ?_ hterm'
      show ({ s₁.core with states := _ } : Core) = _
      rw [hc]
      rfl
    · exact fun _ x => .of .acknowledgeRefused hc hterm'

theorem changes_reconcileResidency (k : ExpertKey) (location : MemoryTier) :
    Changes cfg s (.reconcileResidency k location)
      (s.answer (reconcileResidency k location)) := by
  refine answer_of ?_
  show wp (read >>= _) _ s
  rw [wp_bind, wp_read]
  show wp (_ >>= _) _ s
  rw [wp_bind, wp_ite]
  split
  · apply wp_reconcile
    · exact fun e he hr => .of (.reconcile he hr) rfl ht
    · exact fun _ x => .none rfl rfl ht
  · exact .none rfl rfl ht

theorem changes_cancel (n : RequestId) : Changes cfg s (.cancel n) (s.cancel n) := by
  unfold cancel
  split <;> exact .none rfl rfl ht

theorem changes_shutdown : Changes cfg s .shutdown s.shutdown := by
  unfold shutdown
  split <;> exact .none rfl rfl ht

end

/-! ## the steps of a caller and of a worker -/

/-- a worker holds the pending task of a registered expert -/
theorem held_task (hd : Dispatched cfg s) (hT : Tracked s.core) {w : WorkerId} {t : TaskId}
    (hw : stage (s.workers w) = .holds t) : s.pendingByExpert (s.tasks t).key = some t ∧
      ∃ e, s.states (s.tasks t).key = some e ∧
        Agrees (s.tasks t).request.eviction e.state (s.workers w) := by
  obtain ⟨hlt, -, hc⟩ := hd.1.holds w t hw
  have hp : s.pendingByExpert (s.tasks t).key = some t := hd.1.owned t hlt hc
  obtain ⟨e, he⟩ := hT.pending _ _ hp
  exact ⟨hp, e, he, hT.held w t e hw he⟩

section

variable (ht : s.terminated = false) (hd : Dispatched cfg s) (hT : Tracked s.core)

include ht hd hT

omit hd in
theorem changes_readyResult {n : RequestId} {call : ReadyCall} {accepted : Accepted}
    (hc : s.calls n = some call) (hr : s.requests n = some accepted) :
    Changes cfg s (.readyResult n) (s.thread (readyResult n accepted call)) := by
  refine thread_of ?_
  cases call with
  | looking => exact .of (.looks hr hc) rfl ht
  | looked transfer =>
    show wp (_ >>= _) _ s
    rw [wp_bind, wp_snapshot]
    obtain ⟨e, he⟩ := hT.accepted n accepted hr
    have he' : s.states accepted.request.key = some e := he
    rw [he']
    exact .of (.snapshots hr hc he') rfl ht
  | answering result =>
    refine .of (.answers hr hc) ?_ ?_
    · show (setCall n _ (if accepted.callback = true then _ else _)).core =
        ({ s.core with
            calls := _
            history := if accepted.callback = true then _ else _ } : Core)
      split <;> rfl
    · show (setCall n _ (if accepted.callback = true then _ else _)).terminated = false
      split <;> exact ht
  | answered result => exact .of (.answered hc) rfl ht

variable {w : WorkerId} {t : TaskId} {outcome : TransferOutcome}

omit hT in
theorem changes_pop (hw : s.workers w = .waiting) :
    Changes cfg s (.work w outcome) (s.pop w) := by
  unfold pop
  split
  · exact .of (.exits hw) rfl ht
  · cases hp : popLive s.tasks s.queue with
    | none =>
      show Changes cfg s _ (goto w (if s.stopping = true then _ else _) _)
      split
      · exact .of (.exits hw) rfl ht
      · refine .none (by simp [Action.continues, hw]) ?_ ht
        show ({ s.core with workers := Function.update s.workers w .waiting } : Core) = _
        rw [← hw, Function.update_eq_self]
        rfl
    | some found =>
      obtain ⟨t, rest⟩ := found
      obtain ⟨before, e, hq, rfl, hlive, -⟩ := popLive_some hp
      have hlive' := live_iff.mp hlive
      have hlt : e.task < s.nextTask := by
        refine (hd.1.entries (entry e) ?_).1
        exact List.mem_map.mpr ⟨e, by rw [hq]; simp, rfl⟩
      have hpending : s.pendingByExpert (s.tasks e.task).key = some e.task :=
        hd.1.owned e.task hlt hlive'.1
      have hfree : ∀ w, (stage (s.workers w)).task ≠ some e.task := by
        intro w' hw'
        cases hst : stage (s.workers w') with
        | idle => rw [hst] at hw'; cases hw'
        | exited => rw [hst] at hw'; cases hw'
        | holds t' =>
          rw [hst] at hw'
          obtain rfl := Option.some.inj hw'
          exact absurd (hlive'.2.1.symm.trans (hd.1.holds w' e.task hst).2.1) (by simp)
        | delivers t' r rest' =>
          rw [hst] at hw'
          obtain rfl := Option.some.inj hw'
          exact absurd (hlive'.1.symm.trans (hd.1.delivers w' e.task r rest' hst).2) (by simp)
      refine .of (.claim hw hpending hfree) ?_ ht
      have hcore : (s.setTask e.task { s.tasks e.task with started := true }).core = s.core :=
        core_setTask_same rfl
      exact congrArg (fun c : Core => { c with
        workers := Function.update c.workers w (.popped e.task) }) hcore

theorem changes_launch (hw : s.workers w = .popped t) :
    Changes cfg s (.work w outcome) (s.thread (launch w t)) := by
  obtain ⟨-, e, he, ha⟩ := held_task hd hT (w := w) (t := t) (by rw [hw]; rfl)
  rw [hw] at ha
  replace ha : e.state = waiting (s.tasks t).request.eviction := ha
  refine thread_of ?_
  show wp (read >>= _) _ s
  rw [wp_bind, wp_read]
  show wp (if _ then _ else _) _ s
  split
  · exact .of (.fails (.inl hw) rfl) rfl ht
  · show wp (_ >>= _) _ s
    rw [wp_bind]
    by_cases hev : (s.tasks t).request.eviction = true
    · rw [if_pos hev]
      refine .of (.launch hw he) ?_ ht
      have hsame : ({ e with state := moving (s.tasks t).request.eviction } : ExpertState) = e := by
        have hs : moving (s.tasks t).request.eviction = e.state := by
          rw [ha, hev]
          rfl
        rw [hs]
      rw [hsame, States.set_same he]
      rfl
    · rw [if_neg hev]
      have hs : e.state = .Queued := by
        rw [ha]
        exact if_neg hev
      have hm : moving (s.tasks t).request.eviction = .Loading := if_neg hev
      refine wp_onRecord_of_allowed he (decide_eq_true hs) ?_
      refine .of (.launch hw he) ?_ ht
      rw [hm]
      rfl

omit hd hT in
theorem changes_awaitTransfer (hw : s.workers w = .loading t)
    (ha : (s.tasks t).request.toTransfer.admits outcome = true) :
    Changes cfg s (.work w outcome) (s.awaitTransfer w t outcome) := by
  unfold awaitTransfer
  cases outcome with
  | error e => exact .of (.fails (.inr hw) rfl) rfl ht
  | ok r =>
    show Changes cfg s _ (if _ then _ else _)
    split
    · exact .of (.fails (.inr hw) rfl) rfl ht
    · next hs =>
      have hs' : r.status = .Completed := by
        cases h : r.status with
        | Completed => rfl
        | Cancelled => exact absurd h hs
      exact .of (.transferred hw ha hs') rfl ht

theorem changes_finishTransfer {r : TransferResult} (hw : s.workers w = .transferred t r) :
    Changes cfg s (.work w outcome) (s.thread (guarded id w t (finishTransfer w t r))) := by
  obtain ⟨-, e, he, ha⟩ := held_task hd hT (w := w) (t := t) (by rw [hw]; rfl)
  rw [hw] at ha
  replace ha : e.state = moving (s.tasks t).request.eviction := ha
  refine thread_of ?_
  show wp (tryCatch _ _) _ s
  rw [wp_tryCatch]
  show wp (read >>= _) _ s
  rw [wp_bind, wp_read]
  show wp (_ >>= _) _ s
  rw [wp_bind]
  refine wp_onRecord_of_allowed he ?_ ?_
  · rw [ha]
    cases (s.tasks t).request.eviction <;> decide
  · exact .of (.finish hw he) rfl ht

omit hd hT in
theorem changes_record {r : TransferResult} (hw : s.workers w = .ready t r)
    (hl : s.lock = none) : Changes cfg s (.work w outcome) (s.record w t r) := by
  unfold record
  show Changes cfg s _ (if _ then _ else _)
  split
  · exact .of (.record hw hl (.inr ⟨_, rfl, rfl⟩)) rfl ht
  · refine .of (.record hw hl (.inl ⟨rfl, rfl⟩)) ?_ ht
    rw [← hl]
    rfl

omit hd hT in
theorem changes_trim {r : TransferResult} {cachedBytes : Nat} {c : ExpertKey}
    {rest : List ExpertKey} (hw : s.workers w = .trimming t r cachedBytes (c :: rest)) :
    Changes cfg s (.work w outcome)
      (s.thread (guarded unlock w t (trim cfg w t r cachedBytes c rest))) := by
  refine thread_of ?_
  show wp (tryCatch _ _) _ s
  rw [wp_tryCatch]
  show wp (read >>= _) _ s
  rw [wp_bind, wp_read]
  dsimp only
  cases hf : s.residentTransfers c with
  | none => exact .of (.keeps hw) rfl ht
  | some found =>
    show wp (if _ then _ else _) _ s
    split
    · exact .of (.keeps hw) rfl ht
    · next hx =>
      have hx' : fits cfg cachedBytes found = false := by simpa using hx
      have hcount : ∀ s₁ : Scheduler, (s₁.count cfg (.wasting 1)).core = s₁.core ∧
          (s₁.count cfg (.wasting 1)).terminated = s₁.terminated := by
        intro s₁
        unfold count
        split <;> exact ⟨rfl, rfl⟩
      let s₁ := forgetPrefetched c (forget c s)
      show wp (drop cfg t c >>= _) _ s
      rw [wp_bind]
      show wp (_ >>= _) _ s
      rw [wp_bind, wp_update]
      show wp (_ >>= _) _ (forget c s)
      rw [wp_bind, wp_update]
      show wp (read >>= _) _ s₁
      rw [wp_bind, wp_read]
      show wp (_ >>= _) _ s₁
      rw [wp_bind]
      by_cases hc : c = (s.tasks t).key
      · rw [if_neg (fun h => h hc)]
        subst hc
        obtain ⟨hcore, hterm⟩ := hcount s₁
        refine .of (.dropsOwn hw hf hx') ?_ (hterm.trans ht)
        exact congrArg (fun p : Core => { p with
          workers := Function.update p.workers w (.trimming t r cachedBytes rest) }) hcore
      · rw [if_pos (show c ≠ (s₁.tasks t).key from hc)]
        apply wp_reconcile
        · intro e he hr
          obtain ⟨hcore, hterm⟩ := hcount (s₁.setStates (s.states.set c (e.settled .Nvme)))
          refine .of (.drops hw hf hx' hc he hr) ?_ (hterm.trans ht)
          exact congrArg (fun p : Core => { p with
            workers := Function.update p.workers w (.trimming t r cachedBytes rest) }) hcore
        · exact fun hr x => .of (.dropRefused hw hf hx' hc hr) rfl ht

theorem changes_succeed {r : TransferResult} (hw : s.workers w = .recorded t r) :
    Changes cfg s (.work w outcome) (s.thread (guarded id w t (succeed w t r))) := by
  obtain ⟨-, e, he, -⟩ := held_task hd hT (w := w) (t := t) (by rw [hw]; rfl)
  refine thread_of ?_
  show wp (tryCatch _ _) _ s
  rw [wp_tryCatch]
  show wp (read >>= _) _ s
  rw [wp_bind, wp_read]
  show wp (_ >>= _) _ s
  rw [wp_bind, wp_snapshot, he]
  exact .of (.succeeds hw he) rfl ht

theorem changes_fail {result : ScheduleResult} (hw : s.workers w = .failing t result) :
    Changes cfg s (.work w outcome) (s.thread (fail w t result)) := by
  obtain ⟨-, e, he, -⟩ := held_task hd hT (w := w) (t := t) (by rw [hw]; rfl)
  refine thread_of ?_
  show wp (read >>= _) _ s
  rw [wp_bind, wp_read]
  show wp (_ >>= _) _ s
  rw [wp_bind, wp_markFailed, he]
  exact .of (.marksFailed hw he) rfl ht

theorem changes_noteFailure {result : ScheduleResult} (hw : s.workers w = .failed t result) :
    Changes cfg s (.work w outcome) (s.thread (noteFailure w t result)) := by
  obtain ⟨-, e, he, -⟩ := held_task hd hT (w := w) (t := t) (by rw [hw]; rfl)
  refine thread_of ?_
  show wp (read >>= _) _ s
  rw [wp_bind, wp_read]
  show wp (_ >>= _) _ s
  rw [wp_bind, wp_snapshot, he]
  exact .of (.notesFailure hw) rfl ht

theorem changes_complete {result : ScheduleResult} (hw : s.workers w = .completing t result) :
    Changes cfg s (.work w outcome) (s.complete w t result) := by
  have hholds : stage (s.workers w) = .holds t := by rw [hw]; rfl
  obtain ⟨hp, -⟩ := held_task hd hT hholds
  have hc : (s.tasks t).completed = false := (hd.1.holds w t hholds).2.2
  unfold complete
  rw [if_neg (by rw [hc]; simp), if_pos hp]
  refine .of (.completes hw) ?_ ht
  have hcore : (s.setTask t { s.tasks t with completed := true }).core = s.core :=
    core_setTask_same rfl
  exact congrArg (fun p : Core => { p with
    pendingByExpert := Function.update p.pendingByExpert (s.tasks t).key none
    workers := Function.update p.workers w (.notifying t result (s.tasks t).callbacks) }) hcore

theorem changes_work (hcan : s.canWork w outcome = true) :
    Changes cfg s (.work w outcome) (s.thread (work cfg w outcome (s.workers w))) := by
  unfold canWork at hcan
  cases hpc : s.workers w with
  | waiting => exact changes_pop ht hd hpc
  | popped t => exact changes_launch ht hd hT hpc
  | loading t =>
    rw [hpc] at hcan
    exact changes_awaitTransfer ht hpc hcan
  | transferred t r => exact changes_finishTransfer ht hd hT hpc
  | ready t r =>
    rw [hpc] at hcan
    exact changes_record ht hpc (by simpa using hcan)
  | trimming t r cachedBytes candidates =>
    cases candidates with
    | nil => exact .of (.trimmed hpc) rfl ht
    | cons c rest => exact changes_trim ht hpc
  | recorded t r => exact changes_succeed ht hd hT hpc
  | failing t result => exact changes_fail ht hd hT hpc
  | failed t result => exact changes_noteFailure ht hd hT hpc
  | completing t result => exact changes_complete ht hd hT hpc
  | notifying t result callbacks =>
    cases callbacks with
    | nil => exact .of (.resolves hpc) rfl ht
    | cons n rest => exact .of (.calls hpc) rfl ht
  | exited =>
    rw [hpc] at hcan
    cases hcan

end

theorem step_change {a : Action} (hd : Dispatched cfg s) (hT : Tracked s.core)
    (h : step cfg a s = some s') : Changes cfg s a s' := by
  obtain ⟨ht, hallows, rfl⟩ := step_eq h
  cases a with
  | registerExpert k location => exact changes_registerExpert ht k location
  | schedule request callback => exact changes_schedule ht rfl request callback
  | prefetch prediction callback =>
    exact changes_schedule ht rfl (prefetchRequest cfg prediction) callback
  | readyResult n =>
    dsimp only [perform]
    cases hc : s.calls n with
    | none =>
      have hno : s.canAnswer n = true := hallows
      unfold canAnswer at hno
      rw [hc] at hno
      cases hno
    | some call =>
      cases hq : s.requests n with
      | none => exact .none (by simp [Action.continues, hq]) rfl ht
      | some accepted => exact changes_readyResult ht hT hc hq
  | cancel n => exact changes_cancel ht n
  | acquire k => exact changes_onExpert ht rfl fun e he hs => .acquire he (by simpa using hs)
  | release k => exact changes_onExpert ht rfl fun e he hs => .release he (by simpa using hs)
  | expirePrefetchesBefore layerId order =>
    have hlock : s.lock = none := by
      have hall : (s.lock = none ∧ order.isPerm s.prefetchedReady = true : Bool) = true := hallows
      simp only [Bool.decide_and, Bool.and_eq_true, decide_eq_true_eq] at hall
      exact hall.1
    exact .of (.expireBegins hlock) rfl ht
  | expireNext =>
    dsimp only [perform]
    split
    · next hl => exact changes_expire ht cfg hl
    · next hl =>
      have hno := hallows
      dsimp only [allows] at hno
      split at hno
      · next hl' => exact absurd hl' (hl _ _ _)
      · cases hno
  | cachedTransfer k => exact .none rfl rfl ht
  | acknowledgeResidency k location => exact changes_acknowledgeResidency ht k location
  | reconcileResidency k location => exact changes_reconcileResidency ht k location
  | shutdown => exact changes_shutdown ht
  | join =>
    have hall : (s.joining = true ∧ ∀ w < cfg.workerCount, s.workers w = .exited : Bool) = true :=
      hallows
    simp only [Bool.decide_and, Bool.and_eq_true, decide_eq_true_eq] at hall
    exact .of (.returned hall.2) rfl ht
  | work w outcome =>
    have hall : (w < cfg.workerCount ∧ s.canWork w outcome = true : Bool) = true := hallows
    simp only [Bool.decide_and, Bool.and_eq_true, decide_eq_true_eq] at hall
    exact changes_work ht hd hT hall.2

/-! ## what a change leaves alone -/

/-- an event, and whose step it is -/
inductive Says (cfg : SchedulerConfig) (s : Scheduler) (c : Core) : Event → Prop where
  | transferred {w : WorkerId} {t : TaskId} {r : TransferResult} (hw : s.workers w = .loading t)
      (hc : c.workers w = .transferred t r)
      (ha : (s.tasks t).request.toTransfer.admits (.ok r) = true) (hs : r.status = .Completed) :
      Says cfg s c (.transferred t r)
  | markedFailed {w : WorkerId} {t : TaskId} {result : ScheduleResult}
      (hw : s.workers w = .failing t result) (hc : c.workers w = .failed t result) :
      Says cfg s c (.markedFailed t)
  | calls {w : WorkerId} {t : TaskId} {n : RequestId} {result : ScheduleResult}
      {rest : List RequestId} (hw : s.workers w = .notifying t result (n :: rest)) :
      Says cfg s c (.called n result)
  | resolves {w : WorkerId} {t : TaskId} {result : ScheduleResult}
      (hw : s.workers w = .notifying t result []) : Says cfg s c (.resolved (.task t) result)
  | answers {n : RequestId} {a : Accepted} {result : ScheduleResult} (ha : s.requests n = some a)
      (hc : s.calls n = some (.answering result)) : Says cfg s c (.called n result)
  | answered {n : RequestId} {result : ScheduleResult}
      (hc : s.calls n = some (.answered result)) : Says cfg s c (.resolved (.own n) result)
  | returned (h : ∀ w < cfg.workerCount, s.workers w = .exited) : Says cfg s c (.shutdownReturned true)

/-- where a worker can go from where it stands -/
inductive Next (cfg : SchedulerConfig) (s : Scheduler) : WorkerPc → WorkerPc → Prop where
  | claim {t : TaskId} (hp : s.pendingByExpert (s.tasks t).key = some t)
      (hf : ∀ w, (stage (s.workers w)).task ≠ some t) : Next cfg s .waiting (.popped t)
  | exits : Next cfg s .waiting .exited
  | cancelled {t : TaskId} {result : ScheduleResult} (hr : result.success = false) :
      Next cfg s (.popped t) (.failing t result)
  | launch {t : TaskId} : Next cfg s (.popped t) (.loading t)
  | aborted {t : TaskId} {result : ScheduleResult} (hr : result.success = false) :
      Next cfg s (.loading t) (.failing t result)
  | transferred {t : TaskId} {r : TransferResult}
      (ha : (s.tasks t).request.toTransfer.admits (.ok r) = true) (hs : r.status = .Completed) :
      Next cfg s (.loading t) (.transferred t r)
  | finish {t : TaskId} {r : TransferResult} : Next cfg s (.transferred t r) (.ready t r)
  | record {t : TaskId} {r : TransferResult} : Next cfg s (.ready t r) (.recorded t r)
  | bound {t : TaskId} {r : TransferResult} {candidates : List ExpertKey} :
      Next cfg s (.ready t r) (.trimming t r 0 candidates)
  | round {t : TaskId} {r : TransferResult} {n n' : Nat} {k : ExpertKey} {rest : List ExpertKey} :
      Next cfg s (.trimming t r n (k :: rest)) (.trimming t r n' rest)
  | refused {t : TaskId} {r found : TransferResult} {n : Nat} {k : ExpertKey}
      {rest : List ExpertKey} {x : Exn} (hf : s.residentTransfers k = some found)
      (hx : fits cfg n found = false) (hc : k ≠ (s.tasks t).key)
      (hr : ∀ e, s.states k = some e → ¬ reconcilable e.state) :
      Next cfg s (.trimming t r n (k :: rest)) (.failing t (failure x))
  | trimmed {t : TaskId} {r : TransferResult} {n : Nat} :
      Next cfg s (.trimming t r n []) (.recorded t r)
  | succeeds {t : TaskId} {r : TransferResult} {e : ExpertState} :
      Next cfg s (.recorded t r) (.completing t { success := true, transfer := r, state := e })
  | marksFailed {t : TaskId} {result : ScheduleResult} :
      Next cfg s (.failing t result) (.failed t result)
  | notesFailure {t : TaskId} {result : ScheduleResult} {e : ExpertState} :
      Next cfg s (.failed t result) (.completing t { result with state := e })
  | completes {t : TaskId} {result : ScheduleResult} {callbacks : List RequestId} :
      Next cfg s (.completing t result) (.notifying t result callbacks)
  | calls {t : TaskId} {result : ScheduleResult} {n : RequestId} {rest : List RequestId} :
      Next cfg s (.notifying t result (n :: rest)) (.notifying t result rest)
  | resolves {t : TaskId} {result : ScheduleResult} : Next cfg s (.notifying t result []) .waiting

/-- a new record of an expert, and whose step wrote it -/
inductive Writes (s : Scheduler) (c : Core) (k : ExpertKey) : Action → ExpertState → Prop where
  | register {location : MemoryTier} (hn : s.states k = none) :
      Writes s c k (.registerExpert k location)
        { layerId := k.1, id := k.2, currentLocation := location, targetLocation := location }
  | acquire {e : ExpertState} (he : s.states k = some e) (hs : e.state = .Ready) :
      Writes s c k (.acquire k) { e with state := .InUse, usageCount := e.usageCount + 1 }
  | release {e : ExpertState} (he : s.states k = some e) (hs : e.state = .InUse) :
      Writes s c k (.release k) { e with state := .Ready }
  /-- the caller says where the expert is -/
  | reconcile {a : Action} {location : MemoryTier} {e : ExpertState}
      (ha : a = .reconcileResidency k location ∨ a = .acknowledgeResidency k location)
      (he : s.states k = some e) (hr : reconcilable e.state) :
      Writes s c k a (e.settled location)
  /-- the expert is given up -/
  | giveUp {a : Action} {e : ExpertState} (he : s.states k = some e) (hr : reconcilable e.state) :
      Writes s c k a (e.settled .Nvme)
  | begin {a : Action} {request : ScheduleRequest} {e : ExpertState} (hk : k = request.key)
      (he : s.states k = some e) (hp : s.pendingByExpert k = none) (hc : canBegin request e) :
      Writes s c k a (begun request e)
  | launch {a : Action} {w : WorkerId} {t : TaskId} {e : ExpertState} (hw : s.workers w = .popped t)
      (hc : c.workers w = .loading t) (hk : k = (s.tasks t).key) (he : s.states k = some e) :
      Writes s c k a { e with state := moving (s.tasks t).request.eviction }
  | finish {a : Action} {w : WorkerId} {t : TaskId} {r : TransferResult} {e : ExpertState}
      (hw : s.workers w = .transferred t r) (hc : c.workers w = .ready t r)
      (hk : k = (s.tasks t).key) (he : s.states k = some e) :
      Writes s c k a (e.settled (s.tasks t).request.destination)
  | markFailed {a : Action} {w : WorkerId} {t : TaskId} {result : ScheduleResult} {e : ExpertState}
      (hw : s.workers w = .failing t result) (hc : c.workers w = .failed t result)
      (hk : k = (s.tasks t).key) (he : s.states k = some e) :
      Writes s c k a { e with state := .Failed }

namespace Change

variable {a : Action} {c : Core}

theorem history_eq (h : Change cfg s a c) : c.history = s.core.history ∨
    ∃ e, Says cfg s c e ∧ c.history = e :: s.core.history := by
  cases h
  case transferred hw ha hs => exact .inr ⟨_, .transferred hw (Function.update_self ..) ha hs, rfl⟩
  case marksFailed hw he => exact .inr ⟨_, .markedFailed hw (Function.update_self ..), rfl⟩
  case calls hw => exact .inr ⟨_, .calls hw, rfl⟩
  case resolves hw => exact .inr ⟨_, .resolves hw, rfl⟩
  case answers n a result ha hc =>
    show (if a.callback = true then _ else _) = _ ∨ ∃ e, _ ∧ (if a.callback = true then _ else _) = _
    split
    · exact .inr ⟨_, .answers ha hc, rfl⟩
    · exact .inl rfl
  case answered hc => exact .inr ⟨_, .answered hc, rfl⟩
  case returned h => exact .inr ⟨_, .returned h, rfl⟩
  all_goals exact .inl rfl

theorem states_eq (h : Change cfg s a c) (k : ExpertKey) : c.states k = s.states k ∨
    ∃ e, Writes s c k a e ∧ c.states k = some e := by
  have hset : ∀ {k' : ExpertKey} {e : ExpertState}, (k = k' → Writes s c k a e) →
      s.states.set k' e k = s.states k ∨
        ∃ e', Writes s c k a e' ∧ s.states.set k' e k = some e' := by
    intro k' e hw
    by_cases hk : k = k'
    · exact .inr ⟨e, hw hk, by rw [hk, States.set_self]⟩
    · exact .inl (States.set_of_ne hk ..)
  cases h
  case register hn => exact hset fun hk => by subst hk; exact .register hn
  case acquire he hs => exact hset fun hk => by subst hk; exact .acquire he hs
  case release he hs => exact hset fun hk => by subst hk; exact .release he hs
  case reconcile he hr => exact hset fun hk => by subst hk; exact .reconcile (.inl rfl) he hr
  case acknowledge he hr => exact hset fun hk => by subst hk; exact .reconcile (.inr rfl) he hr
  case expire hl hlt he hr => exact hset fun hk => by subst hk; exact .giveUp he hr
  case drops hw hf hx hc he hr => exact hset fun hk => by subst hk; exact .giveUp he hr
  case enqueue request callback e he hp hi hc ha => exact hset fun hk => .begin hk (hk ▸ he) (hk ▸ hp) hc
  case launch hw he => exact hset fun hk => .launch hw (Function.update_self ..) hk (hk ▸ he)
  case finish hw he => exact hset fun hk => .finish hw (Function.update_self ..) hk (hk ▸ he)
  case marksFailed hw he => exact hset fun hk => .markFailed hw (Function.update_self ..) hk (hk ▸ he)
  all_goals exact .inl rfl

theorem nextTask_eq (h : Change cfg s a c) : s.nextTask ≤ c.nextTask := by
  cases h
  case enqueue => exact Nat.le_succ _
  all_goals exact Nat.le_refl _

/-- the tasks that were there before keep what their requests ask for -/
theorem targets_eq (h : Change cfg s a c) {t : TaskId} (ht : t < s.nextTask) :
    c.targets t = (s.tasks t).target := by
  cases h
  case enqueue => exact Function.update_of_ne (Nat.ne_of_lt ht) ..
  all_goals rfl

theorem pending_of (h : Change cfg s a c) {k : ExpertKey} {t : TaskId} (ht : t < s.nextTask)
    (hp : c.pendingByExpert k = some t) : s.pendingByExpert k = some t := by
  cases h
  case enqueue request callback e he hp' hi hc ha =>
    replace hp : Function.update s.pendingByExpert request.key (some s.nextTask) k = some t := hp
    rw [Function.update_apply] at hp
    split at hp
    · exact absurd (Option.some.inj hp) (Nat.ne_of_gt ht)
    · exact hp
  case completes w outcome t' result hw =>
    replace hp : Function.update s.pendingByExpert (s.tasks t').key none k = some t := hp
    rw [Function.update_apply] at hp
    split at hp
    · cases hp
    · exact hp
  all_goals exact hp

theorem requests_of (h : Change cfg s a c) {n : RequestId} {x : Accepted}
    (hx : c.requests n = some x) : s.requests n = some x ∨ n = s.nextRequest := by
  have hnew : ∀ {y : Accepted}, Function.update s.requests s.nextRequest (some y) n = some x →
      s.requests n = some x ∨ n = s.nextRequest := by
    intro y hy
    by_cases hn : n = s.nextRequest
    · exact .inr hn
    · rw [Function.update_of_ne hn] at hy
      exact .inl hy
  cases h
  case answersAtOnce => exact hnew hx
  case join => exact hnew hx
  case enqueue => exact hnew hx
  all_goals exact .inl hx

/-- only its own steps move a worker -/
theorem workers_eq (h : Change cfg s a c) : c.workers = s.workers ∨ ∃ w outcome pc,
    a = .work w outcome ∧ Next cfg s (s.workers w) pc ∧ c.workers = Function.update s.workers w pc := by
  have hnext : ∀ {w : WorkerId} {pc pc' : WorkerPc}, s.workers w = pc' → Next cfg s pc' pc →
      Next cfg s (s.workers w) pc := fun hw hn => hw ▸ hn
  cases h
  case claim hw hp hf => exact .inr ⟨_, _, _, rfl, hnext hw (.claim hp hf), rfl⟩
  case exits hw => exact .inr ⟨_, _, _, rfl, hnext hw .exits, rfl⟩
  case fails w outcome t result hw hr =>
    rcases hw with hw | hw
    · exact .inr ⟨_, _, _, rfl, hnext hw (.cancelled hr), rfl⟩
    · exact .inr ⟨_, _, _, rfl, hnext hw (.aborted hr), rfl⟩
  case launch hw he => exact .inr ⟨_, _, _, rfl, hnext hw .launch, rfl⟩
  case transferred hw ha hs => exact .inr ⟨_, _, _, rfl, hnext hw (.transferred ha hs), rfl⟩
  case finish hw he => exact .inr ⟨_, _, _, rfl, hnext hw .finish, rfl⟩
  case record w outcome t r pc lock hw hl hpc =>
    rcases hpc with ⟨rfl, -⟩ | ⟨candidates, rfl, -⟩
    · exact .inr ⟨_, _, _, rfl, hnext hw .record, rfl⟩
    · exact .inr ⟨_, _, _, rfl, hnext hw .bound, rfl⟩
  case keeps hw => exact .inr ⟨_, _, _, rfl, hnext hw .round, rfl⟩
  case dropsOwn hw hf hx => exact .inr ⟨_, _, _, rfl, hnext hw .round, rfl⟩
  case drops hw hf hx hc he hr => exact .inr ⟨_, _, _, rfl, hnext hw .round, rfl⟩
  case dropRefused hw hf hx hc hr => exact .inr ⟨_, _, _, rfl, hnext hw (.refused hf hx hc hr), rfl⟩
  case trimmed hw => exact .inr ⟨_, _, _, rfl, hnext hw .trimmed, rfl⟩
  case succeeds hw he => exact .inr ⟨_, _, _, rfl, hnext hw .succeeds, rfl⟩
  case marksFailed hw he => exact .inr ⟨_, _, _, rfl, hnext hw .marksFailed, rfl⟩
  case notesFailure hw => exact .inr ⟨_, _, _, rfl, hnext hw .notesFailure, rfl⟩
  case completes hw => exact .inr ⟨_, _, _, rfl, hnext hw .completes, rfl⟩
  case calls hw => exact .inr ⟨_, _, _, rfl, hnext hw .calls, rfl⟩
  case resolves hw => exact .inr ⟨_, _, _, rfl, hnext hw .resolves, rfl⟩
  all_goals exact .inl rfl

/-- a worker stays where it is or goes on -/
theorem next_of (h : Change cfg s a c) (w : WorkerId) :
    c.workers w = s.workers w ∨ Next cfg s (s.workers w) (c.workers w) := by
  rcases h.workers_eq with e | ⟨w', outcome, pc, -, hn, e⟩
  · exact .inl (congrFun e w)
  · rw [e, Function.update_apply]
    split
    · next hw => exact .inr (hw ▸ hn)
    · exact .inl rfl

end Change

namespace Next

variable {pc pc' : WorkerPc} {t : TaskId}

theorem task_of (h : Next cfg s pc pc') (ht : (stage pc').task = some t) :
    (stage pc).task = some t ∨ (s.pendingByExpert (s.tasks t).key = some t ∧
      ∀ w, (stage (s.workers w)).task ≠ some t) := by
  cases h
  case claim hp hf =>
    obtain rfl := Option.some.inj ht
    exact .inr ⟨hp, hf⟩
  case exits => cases ht
  case resolves => cases ht
  all_goals exact .inl ht

theorem keepsTask (h : Next cfg s pc pc') (ht : stage pc = .holds t) : (stage pc').task = some t := by
  cases h
  case claim => cases ht
  case exits => cases ht
  case calls => cases ht
  case resolves => cases ht
  all_goals exact congrArg Dispatch.Stage.task ht

end Next

namespace Change

variable {a : Action} {c : Core}

/-- a worker keeps its task, or has just claimed it -/
theorem task_of (h : Change cfg s a c) {w : WorkerId} {t : TaskId}
    (ht : (stage (c.workers w)).task = some t) : (stage (s.workers w)).task = some t ∨
      (s.pendingByExpert (s.tasks t).key = some t ∧ ∀ w, (stage (s.workers w)).task ≠ some t) := by
  rcases h.next_of w with e | hn
  · exact .inl (e ▸ ht)
  · exact hn.task_of ht

/-- a worker gives up its task only when it has delivered it -/
theorem keepsTask (h : Change cfg s a c) {w : WorkerId} {t : TaskId}
    (ht : stage (s.workers w) = .holds t) : (stage (c.workers w)).task = some t := by
  rcases h.next_of w with e | hn
  · rw [e, ht]
    rfl
  · exact hn.keepsTask ht

end Change

end Scheduler

end HyperMoE
