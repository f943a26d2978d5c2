import Mathlib.Data.List.Sort
import Mathlib.Data.List.Perm.Basic
import Mathlib.Data.Rat.Defs
import Mathlib.Algebra.Order.Field.Rat
import HyperMoE.Lib.Runs
import HyperMoE.Scheduler.ExpertState

/-!
# Scheduler: the queue, its workers and what they retain

`Scheduler.cpp` as a step function.  A step is what one thread does in one critical section of
`mutex_`, or in one call of the state machine (which has a mutex of its own) outside of it.

* `Task`, `QueueEntry`, `WorkerPc`, `ReadyCall`   a shared task, its entries in the priority queue,
                                                  where a worker stands in `workerLoop`, where a
                                                  caller stands in `readyResult`;
* `Holder`                                        the two loops that keep `mutex_` while they call
                                                  the state machine once per round;
* `schedule` ... `shutdown`                       the public operations;
* `work`                                          one step of a worker;
* `Action`, `step`                                the whole scheduler, one labelled step at a time;
* `Event`, `history`                              what the outside has seen.

`schedule` reads the expert's record, and later moves it to another state, in two calls of the
state machine.  Between the two only `acquire` and `release` can change the record (every other
change needs `mutex_` or a task of that expert), and neither of them changes what the code decided
from it; so the section is one step.  `std::priority_queue` is a list in the order in which its
entries are popped.  A future is named by its task, or by the request that was answered at once.
Time stamps, runtime events and the profiler's figures other than the prefetch counters are left
out.
-/

namespace HyperMoE

open Lib Lib.Fallible

abbrev TaskId := Nat
abbrev WorkerId := Nat
abbrev RequestId := Nat

/-! ## requests and results -/

inductive TransferPriority where
  | BackgroundMaintenance
  | CacheWarming
  | PredictedNextLayer
  | ActiveInference
  deriving DecidableEq, Repr

def TransferPriority.toInt : TransferPriority → Int
  | .BackgroundMaintenance => 100
  | .CacheWarming => 200
  | .PredictedNextLayer => 300
  | .ActiveInference => 400

structure ScheduleRequest where
  layerId : LayerId := 0
  expertId : ExpertId := 0
  source : MemoryTier := .Nvme
  destination : MemoryTier := .Vram
  priority : TransferPriority := .ActiveInference
  hostBuffer : Option Buffer := none
  pinnedBuffer : Option Buffer := none
  deviceBuffer : Option Buffer := none
  eviction : Bool := false
  priorityScore : ℚ := 0
  deriving DecidableEq

namespace ScheduleRequest

def key (q : ScheduleRequest) : ExpertKey := (q.layerId, q.expertId)

def isPrefetch (q : ScheduleRequest) : Bool := q.priority = .PredictedNextLayer

def isActive (q : ScheduleRequest) : Bool := q.priority = .ActiveInference

def toTransfer (q : ScheduleRequest) : TransferRequest where
  layerId := q.layerId
  expertId := q.expertId
  source := q.source
  destination := q.destination
  priority := q.priority.toInt
  hostBuffer := q.hostBuffer
  sourcePinnedBuffer := q.pinnedBuffer
  sourceDeviceBuffer := q.deviceBuffer

end ScheduleRequest

structure ScheduleResult where
  success : Bool := false
  cancelled : Bool := false
  transfer : TransferResult := {}
  state : ExpertState := {}
  error : String := ""
  deriving DecidableEq

structure PredictedExpertRequest where
  layerId : LayerId
  expertId : ExpertId
  probability : ℚ
  confidence : ℚ

/-- the buffer that a transfer to the tier comes with; nothing for NVMe -/
def TransferResult.carries (r : TransferResult) : MemoryTier → Bool
  | .Ram => r.buffer.isSome
  | .PinnedRam => r.pinnedBuffer.isSome
  | .Vram => r.deviceBuffer.isSome
  | .Nvme => false

/-- what `TransferManager` can answer to a request: `submit` refuses NVMe, and a completed transfer
is about the expert and the tiers asked for and carries the buffer of its destination -/
def TransferRequest.admits (q : TransferRequest) : TransferOutcome → Bool
  | .error _ => true
  | .ok r => q.destination ≠ .Nvme ∧ (r.status = .Completed →
      r.record.layerId = q.layerId ∧ r.record.expertId = q.expertId ∧ r.source = q.source ∧
      r.destination = q.destination ∧ r.carries q.destination = true)

/-- `what()`; everything that a transfer throws derives from `std::exception` -/
def Exn.what : Exn → String
  | .runtimeError what => what
  | .overflowError what => what
  | .logicError what => what
  | .invalidArgument what => what
  | .outOfRange what => what
  | .other what => what
  | .outOfFuel => ""

/-! ## the queue -/

structure Task where
  request : ScheduleRequest := {}
  callbacks : List RequestId := []
  generation : Nat := 0
  started : Bool := false
  completed : Bool := false
  prefetchRequest : Bool := false
  activeConsumer : Bool := false
  deriving DecidableEq

def Task.key (task : Task) : ExpertKey := task.request.key

structure QueueEntry where
  task : TaskId
  priority : TransferPriority
  sequence : Nat
  generation : Nat
  priorityScore : ℚ
  deriving DecidableEq

namespace QueueEntry

/-- `HigherPriority`: `a` comes after `b` -/
def lowerThan (a b : QueueEntry) : Bool :=
  if a.priority ≠ b.priority then a.priority.toInt < b.priority.toInt
  else if a.priorityScore ≠ b.priorityScore then a.priorityScore < b.priorityScore
  else a.sequence > b.sequence

/-- the entry still stands for its task -/
def live (tasks : TaskId → Task) (e : QueueEntry) : Bool :=
  !(tasks e.task).completed && !(tasks e.task).started && e.generation == (tasks e.task).generation

end QueueEntry

def push (e : QueueEntry) : List QueueEntry → List QueueEntry
  | [] => [e]
  | a :: rest => if a.lowerThan e then e :: a :: rest else a :: push e rest

/-- pop up to the first live entry: its task, and what is left in the queue -/
def popLive (tasks : TaskId → Task) : List QueueEntry → Option (TaskId × List QueueEntry)
  | [] => none
  | e :: rest => if e.live tasks then some (e.task, rest) else popLive tasks rest

/-! ## threads -/

/-- where a worker stands in `workerLoop` and `complete` -/
inductive WorkerPc where
  /-- at the top of the loop -/
  | waiting
  /-- has claimed the task, and next looks at its `cancelled` flag -/
  | popped (t : TaskId)
  /-- waits for the transfer -/
  | loading (t : TaskId)
  /-- the transfer completed, `markReady` comes next -/
  | transferred (t : TaskId) (r : TransferResult)
  /-- before the section that records the result -/
  | ready (t : TaskId) (r : TransferResult)
  /-- in the loop that bounds speculative ownership -/
  | trimming (t : TaskId) (r : TransferResult) (cachedBytes : Nat) (candidates : List ExpertKey)
  | recorded (t : TaskId) (r : TransferResult)
  /-- in `complete` with an unsuccessful result, before `markFailed` -/
  | failing (t : TaskId) (result : ScheduleResult)
  | failed (t : TaskId) (result : ScheduleResult)
  /-- before the section of `complete` -/
  | completing (t : TaskId) (result : ScheduleResult)
  | notifying (t : TaskId) (result : ScheduleResult) (callbacks : List RequestId)
  | exited
  deriving DecidableEq

/-- where a caller stands in `readyResult` -/
inductive ReadyCall where
  | looking
  | looked (transfer : TransferResult)
  | answering (result : ScheduleResult)
  | answered (result : ScheduleResult)
  deriving DecidableEq

/-- who is in a loop under `mutex_` -/
inductive Holder where
  | worker (w : WorkerId)
  | expiring (layerId : LayerId) (remaining : List ExpertKey) (wasted : Nat)
  deriving DecidableEq

/-! ## what the outside sees -/

inductive Future where
  | task (t : TaskId)
  | own (n : RequestId)
  deriving DecidableEq

/-- a request that was accepted: the future it got, and whether a callback came with it -/
structure Accepted where
  request : ScheduleRequest
  future : Future
  callback : Bool
  deriving DecidableEq

inductive Reply where
  | done
  /-- the handle of an accepted request -/
  | handle (n : RequestId)
  /-- the call is not over: `readyResult` follows -/
  | answersAtOnce (n : RequestId)
  | cached (transfer : Option TransferResult)
  deriving DecidableEq

inductive Event where
  | replied (reply : Reply)
  | threw (e : Exn)
  | started (t : TaskId) (w : WorkerId)
  | transferred (t : TaskId) (r : TransferResult)
  | markedFailed (t : TaskId)
  | called (n : RequestId) (result : ScheduleResult)
  | resolved (f : Future) (result : ScheduleResult)
  /-- `shutdown` returned, after it joined the workers or because another call had begun -/
  | shutdownReturned (joined : Bool)
  deriving DecidableEq

structure PrefetchCounters where
  requests : Nat := 0
  hits : Nat := 0
  useful : Nat := 0
  misses : Nat := 0
  late : Nat := 0
  wasted : Nat := 0
  deriving DecidableEq, Repr

namespace PrefetchCounters

def requested (c : PrefetchCounters) : PrefetchCounters := { c with requests := c.requests + 1 }

def hit (c : PrefetchCounters) : PrefetchCounters :=
  { c with hits := c.hits + 1, useful := c.useful + 1 }

def missed (c : PrefetchCounters) : PrefetchCounters :=
  { c with misses := c.misses + 1, late := c.late + 1 }

def wasting (n : Nat) (c : PrefetchCounters) : PrefetchCounters := { c with wasted := c.wasted + n }

end PrefetchCounters

/-! ## the scheduler -/

/-- what the constructor was given, and what it checked -/
structure SchedulerConfig where
  /-- a profiler is present -/
  profiled : Bool := false
  workerCount : Nat := 2
  prefetchDestination : MemoryTier := .Vram
  maximumPrefetchBytes : Nat := 2 ^ 64 - 1
  hasWorker : workerCount ≠ 0 := by decide
  validPrefetch : (prefetchDestination = .Ram ∨ prefetchDestination = .Vram) ∧
    maximumPrefetchBytes ≠ 0 := by decide

theorem SchedulerConfig.hasWorker_two : 2 ≠ 0 := by decide

theorem SchedulerConfig.validPrefetch_ram :
    (MemoryTier.Ram = .Ram ∨ MemoryTier.Ram = .Vram) ∧ 2 ^ 64 - 1 ≠ 0 := by decide

def SchedulerConfig.make (profiled : Bool) (workerCount : Nat) (prefetchDestination : MemoryTier)
    (maximumPrefetchBytes : Nat) : Except Exn SchedulerConfig :=
  if hw : workerCount = 0 then .error (.invalidArgument "Scheduler requires a worker")
  else if hp : (prefetchDestination ≠ .Ram ∧ prefetchDestination ≠ .Vram) ∨
      maximumPrefetchBytes = 0 then
    .error (.invalidArgument "invalid scheduler prefetch budget or tier")
  else .ok
    { profiled, workerCount, prefetchDestination, maximumPrefetchBytes
      hasWorker := hw
      validPrefetch :=
        ⟨Classical.byContradiction fun h => hp (.inl (not_or.mp h)), fun h => hp (.inr h)⟩ }

/-- `cancelled` holds the flags that the tasks share with their handles, `joining` is true while a
`shutdown` waits for the workers, `terminated` after an exception left a worker thread -/
structure Scheduler where
  states : States := fun _ => none
  tasks : TaskId → Task := fun _ => {}
  nextTask : TaskId := 0
  cancelled : TaskId → Bool := fun _ => false
  queue : List QueueEntry := []
  pendingByExpert : ExpertKey → Option TaskId := fun _ => none
  residentTransfers : ExpertKey → Option TransferResult := fun _ => none
  prefetchedReady : List ExpertKey := []
  nextSequence : Nat := 0
  stopping : Bool := false
  joining : Bool := false
  workers : WorkerId → WorkerPc := fun _ => .waiting
  lock : Option Holder := none
  terminated : Bool := false
  requests : RequestId → Option Accepted := fun _ => none
  nextRequest : RequestId := 0
  calls : RequestId → Option ReadyCall := fun _ => none
  history : List Event := []
  profiler : PrefetchCounters := {}

namespace Scheduler

abbrev Code := Fallible Exn Scheduler

variable (cfg : SchedulerConfig)

/-! ## small changes of the state -/

def log (e : Event) (s : Scheduler) : Scheduler := { s with history := e :: s.history }

def goto (w : WorkerId) (pc : WorkerPc) (s : Scheduler) : Scheduler :=
  { s with workers := Function.update s.workers w pc }

def setTask (t : TaskId) (task : Task) (s : Scheduler) : Scheduler :=
  { s with tasks := Function.update s.tasks t task }

def setStates (states : States) (s : Scheduler) : Scheduler := { s with states := states }

def setCall (n : RequestId) (call : Option ReadyCall) (s : Scheduler) : Scheduler :=
  { s with calls := Function.update s.calls n call }

def unlock (s : Scheduler) : Scheduler := { s with lock := none }

/-- `if (profiler_) ...` -/
def count (f : PrefetchCounters → PrefetchCounters) (s : Scheduler) : Scheduler :=
  if cfg.profiled then { s with profiler := f s.profiler } else s

def onStates {α : Type} (x : States.Code α) : Code α := zoom Scheduler.states setStates x

/-- give up what is retained for the expert -/
def forget (k : ExpertKey) (s : Scheduler) : Scheduler :=
  { s with residentTransfers := Function.update s.residentTransfers k none }

def forgetPrefetched (k : ExpertKey) (s : Scheduler) : Scheduler :=
  { s with prefetchedReady := s.prefetchedReady.erase k }

/-- the request just accepted gets the next number -/
def accept (request : ScheduleRequest) (future : Future) (callback : Bool) (s : Scheduler) :
    Scheduler :=
  { s with
    requests := Function.update s.requests s.nextRequest (some ⟨request, future, callback⟩)
    nextRequest := s.nextRequest + 1 }

/-! ## schedule -/

def isReadyAt (state : ExpertState) (destination : MemoryTier) : Bool :=
  state.currentLocation = destination ∧ state.state = .Ready

def immediatelyReady (request : ScheduleRequest) (state : ExpertState) (existing : Option TaskId) :
    Bool :=
  existing = none ∧ request.eviction = false ∧ state.currentLocation = request.destination ∧
    (state.state = .Ready ∨ state.state = .InUse)

/-- an active request met a pending prefetch -/
def observePending (t : TaskId) (ready : Bool) (s : Scheduler) : Scheduler :=
  if (s.tasks t).prefetchRequest then
    if ready then
      { s.setTask t { s.tasks t with activeConsumer := true } with profiler := s.profiler.hit }
    else { s with profiler := s.profiler.missed }
  else s

/-- what the profiler's presence makes of an active request: the prefetch is looked up, and its
mark is erased whatever the answer -/
def observeActive (request : ScheduleRequest) (state : ExpertState) (existing : Option TaskId)
    (s : Scheduler) : Scheduler :=
  let ready := isReadyAt state request.destination
  let erased := forgetPrefetched request.key s
  if request.key ∈ s.prefetchedReady ∧ ready then { erased with profiler := s.profiler.hit }
  else existing.elim erased fun t => observePending t ready erased

def observeRequest (request : ScheduleRequest) (state : ExpertState) (existing : Option TaskId)
    (s : Scheduler) : Scheduler :=
  if cfg.profiled then
    if request.isPrefetch then { s with profiler := s.profiler.requested }
    else if request.isActive then observeActive request state existing s
    else s
  else s

/-- the caller goes on in `readyResult` -/
def acceptReady (request : ScheduleRequest) (callback : Bool) (s : Scheduler) :
    Reply × Scheduler :=
  let n := s.nextRequest
  let s := if request.isPrefetch
    then { s with prefetchedReady := s.prefetchedReady.insert request.key } else s
  (.answersAtOnce n, (s.accept request (.own n) callback).setCall n (some .looking))

def higherPriority (task : Task) (request : ScheduleRequest) : Bool :=
  task.request.priority.toInt < request.priority.toInt

def betterScore (task : Task) (request : ScheduleRequest) : Bool :=
  request.priority = task.request.priority ∧ task.request.priorityScore < request.priorityScore

def upgrades (task : Task) (request : ScheduleRequest) : Bool :=
  (higherPriority task request || betterScore task request) && !task.started

def upgraded (task : Task) (request : ScheduleRequest) : Task :=
  { task with
    request := { task.request with
      priority := if higherPriority task request then request.priority else task.request.priority
      priorityScore := max task.request.priorityScore request.priorityScore }
    generation := task.generation + 1 }

def enqueueEntry (t : TaskId) (task : Task) (s : Scheduler) : Scheduler :=
  { s with
    queue := push ⟨t, task.request.priority, s.nextSequence, task.generation,
      task.request.priorityScore⟩ s.queue
    nextSequence := s.nextSequence + 1 }

def joined (task : Task) (n : RequestId) (request : ScheduleRequest) (callback : Bool) : Task :=
  { task with
    callbacks := if callback then task.callbacks ++ [n] else task.callbacks
    activeConsumer := task.activeConsumer || request.isActive }

/-- the task, joined by the request, goes back into the table, and into the queue once more if it
gained priority -/
def putJoined (t : TaskId) (task : Task) (request : ScheduleRequest) (s : Scheduler) : Scheduler :=
  if upgrades task request
    then (s.setTask t (upgraded task request)).enqueueEntry t (upgraded task request)
    else s.setTask t task

def coalesce (t : TaskId) (request : ScheduleRequest) (callback : Bool) (s : Scheduler) :
    Reply × Scheduler :=
  let n := s.nextRequest
  (.handle n, putJoined t (joined (s.tasks t) n request callback) request
    (s.accept request (.task t) callback))

def newTask (n : RequestId) (request : ScheduleRequest) (callback : Bool) : Task where
  request := request
  callbacks := if callback then [n] else []
  prefetchRequest := request.isPrefetch
  activeConsumer := request.isActive

def enqueue (request : ScheduleRequest) (callback : Bool) (s : Scheduler) : Reply × Scheduler :=
  let n := s.nextRequest
  let t := s.nextTask
  let task := newTask n request callback
  let s := { s with
    nextTask := t + 1
    cancelled := Function.update s.cancelled t false
    pendingByExpert := Function.update s.pendingByExpert request.key (some t) }
  (.handle n, ((s.accept request (.task t) callback).setTask t task).enqueueEntry t task)

def beginTransition (request : ScheduleRequest) : Code Unit :=
  if request.eviction then onStates (States.beginEviction request.key request.destination)
  else do
    onStates (States.request request.key request.destination)
    onStates (States.markQueued request.key)

def submit (request : ScheduleRequest) (callback : Bool) (existing : Option TaskId) : Code Reply :=
  match existing with
  | some t => do
    let s ← read
    throwIf ((s.tasks t).request.destination ≠ request.destination)
      (.logicError "expert already has a different pending target")
    updateGet (coalesce t request callback)
  | none => do
    beginTransition request
    updateGet (enqueue request callback)

def schedule (request : ScheduleRequest) (callback : Bool) : Code Reply := do
  let s ← read
  throwIf (s.stopping = true) (.runtimeError "Scheduler is shutting down")
  let initialState ← onStates (States.snapshot request.key)
  let existing := s.pendingByExpert request.key
  update (observeRequest cfg request initialState existing)
  if immediatelyReady request initialState existing then updateGet (acceptReady request callback)
  else submit request callback existing

def prefetchRequest (prediction : PredictedExpertRequest) : ScheduleRequest where
  layerId := prediction.layerId
  expertId := prediction.expertId
  source := .Nvme
  destination := cfg.prefetchDestination
  priority := .PredictedNextLayer
  priorityScore := max 0 (min 1 (7 / 10 * prediction.probability + 3 / 10 * prediction.confidence))

def prefetch (prediction : PredictedExpertRequest) (callback : Bool) : Code Reply :=
  schedule cfg (prefetchRequest cfg prediction) callback

/-! ## readyResult -/

/-- one step of the caller of request `n` -/
def readyResult (n : RequestId) (accepted : Accepted) : ReadyCall → Code Unit
  | .looking => update fun s =>
      s.setCall n (some (.looked ((s.residentTransfers accepted.request.key).getD {})))
  | .looked transfer => do
    let state ← onStates (States.snapshot accepted.request.key)
    update (setCall n (some (.answering { success := true, transfer := transfer, state := state })))
  | .answering result => update fun s =>
      (if accepted.callback then s.log (.called n result) else s).setCall n (some (.answered result))
  | .answered result => update fun s =>
      ((s.log (.resolved (.own n) result)).log (.replied (.handle n))).setCall n none

/-! ## residency -/

/-- one round of the loop of `expirePrefetchesBefore` -/
def expireNext (layerId : LayerId) (wasted : Nat) (k : ExpertKey) (rest : List ExpertKey) :
    Code Unit :=
  if k.1 < layerId then do
    update (forget k)
    onStates (States.reconcile k .Nvme)
    update (forgetPrefetched k)
    update fun s => { s with lock := some (.expiring layerId rest (wasted + 1)) }
  else update fun s => { s with lock := some (.expiring layerId rest wasted) }

/-- the rest of `expirePrefetchesBefore`: a round, or its end -/
def expire (layerId : LayerId) (wasted : Nat) : List ExpertKey → Code Unit
  | [] => update fun s => ((s.count cfg (.wasting wasted)).log (.replied .done)).unlock
  | k :: rest =>
    tryCatch (expireNext layerId wasted k rest) fun e => update fun s => (s.log (.threw e)).unlock

def cachedTransfer (k : ExpertKey) : Code Reply := do
  let s ← read
  return .cached (if (s.pendingByExpert k).isSome then none else s.residentTransfers k)

def acknowledgeResidency (k : ExpertKey) (location : MemoryTier) : Code Reply := do
  let s ← read
  throwIf ((s.pendingByExpert k).isSome = true)
    (.logicError "cannot adopt a pending scheduler transfer")
  update (forget k)
  update fun s => if k ∈ s.prefetchedReady then (s.forgetPrefetched k).count cfg .hit else s
  onStates (States.reconcile k location)
  return .done

def reconcileResidency (k : ExpertKey) (location : MemoryTier) : Code Reply := do
  let s ← read
  (if (s.pendingByExpert k).isNone ∧ (s.residentTransfers k).isNone
    then onStates (States.reconcile k location) else pure ())
  return .done

/-! ## shutdown and cancellation -/

def isPending (t : TaskId) (s : Scheduler) : Bool :=
  t < s.nextTask ∧ s.pendingByExpert (s.tasks t).key = some t

def shutdown (s : Scheduler) : Scheduler :=
  if s.stopping then s.log (.shutdownReturned false)
  else { s with
    stopping := true
    joining := true
    cancelled := fun t => s.cancelled t || s.isPending t }

/-- the handle of request `n` sets the flag of its task; a handle of `readyResult` has a flag that
nobody reads -/
def cancel (n : RequestId) (s : Scheduler) : Scheduler :=
  match s.requests n with
  | some ⟨_, .task t, _⟩ => { s with cancelled := Function.update s.cancelled t true }
  | _ => s

/-! ## workerLoop -/

def claim (w : WorkerId) (t : TaskId) (rest : List QueueEntry) (s : Scheduler) : Scheduler :=
  ((({ s with queue := rest }).setTask t { s.tasks t with started := true }).goto w
    (.popped t)).log (.started t w)

/-- nothing but entries that were superseded was left in the queue -/
def drain (w : WorkerId) (s : Scheduler) : Scheduler :=
  ({ s with queue := [] }).goto w (if s.stopping then .exited else .waiting)

def pop (w : WorkerId) (s : Scheduler) : Scheduler :=
  if s.stopping ∧ s.queue = [] then s.goto w .exited
  else match popLive s.tasks s.queue with
    | some (t, rest) => s.claim w t rest
    | none => s.drain w

/-- the flag is read, then the expert is marked as loading: outside the `try` block -/
def launch (w : WorkerId) (t : TaskId) : Code Unit := do
  let s ← read
  if s.cancelled t then
    update (goto w (.failing t
      { cancelled := true, error := "schedule request cancelled before transfer" }))
  else do
    (if (s.tasks t).request.eviction then pure () else onStates (States.markLoading (s.tasks t).key))
    update (goto w (.loading t))

def failure (e : Exn) : ScheduleResult := { error := e.what }

def awaitTransfer (w : WorkerId) (t : TaskId) (outcome : TransferOutcome) (s : Scheduler) :
    Scheduler :=
  match outcome with
  | .error e => s.goto w (.failing t (failure e))
  | .ok r =>
    if r.status = .Cancelled
      then s.goto w (.failing t { cancelled := true, error := "transfer cancelled" })
      else (s.goto w (.transferred t r)).log (.transferred t r)

/-- code of the `try` block: what it throws is caught, and the task goes to `complete`; a scoped
lock is left on the way -/
def guarded (leave : Scheduler → Scheduler) (w : WorkerId) (t : TaskId) (x : Code Unit) :
    Code Unit :=
  tryCatch x fun e => update fun s => (leave s).goto w (.failing t (failure e))

def finishTransfer (w : WorkerId) (t : TaskId) (r : TransferResult) : Code Unit := do
  let s ← read
  onStates (States.markReady (s.tasks t).key (s.tasks t).request.destination)
  update (goto w (.ready t r))

/-- the numeric order of the keys -/
def keyLe (a b : ExpertKey) : Prop := a.1 < b.1 ∨ (a.1 = b.1 ∧ a.2 ≤ b.2)

instance : DecidableRel keyLe := fun a b => by unfold keyLe; infer_instance

def retain (k : ExpertKey) (r : TransferResult) (destination : MemoryTier) (s : Scheduler) :
    Scheduler :=
  { s with
    residentTransfers :=
      Function.update s.residentTransfers k (if destination = .Nvme then none else some r) }

/-- the first half of the section that records a finished transfer; the second half is the loop of
`trim` -/
def record (w : WorkerId) (t : TaskId) (r : TransferResult) (s : Scheduler) : Scheduler :=
  let task := s.tasks t
  let s := s.retain task.key r task.request.destination
  if task.prefetchRequest ∧ task.activeConsumer = false then
    let speculative := s.prefetchedReady.insert task.key
    ({ s with prefetchedReady := speculative, lock := some (.worker w) }).goto w
      (.trimming t r 0 (speculative.insertionSort keyLe))
  else s.goto w (.recorded t r)

/-- the candidate does not fit any more -/
def drop (t : TaskId) (c : ExpertKey) : Code Unit := do
  update (forget c)
  update (forgetPrefetched c)
  let s ← read
  (if c ≠ (s.tasks t).key then onStates (States.reconcile c .Nvme) else pure ())
  update (count cfg (.wasting 1))

def fits (cachedBytes : Nat) (found : TransferResult) : Bool :=
  found.record.size ≤ cfg.maximumPrefetchBytes - cachedBytes

/-- one round of the loop that bounds speculative ownership -/
def trim (w : WorkerId) (t : TaskId) (r : TransferResult) (cachedBytes : Nat) (c : ExpertKey)
    (rest : List ExpertKey) : Code Unit := do
  let s ← read
  match s.residentTransfers c with
  | none => update (goto w (.trimming t r cachedBytes rest))
  | some found =>
    if fits cfg cachedBytes found then
      update (goto w (.trimming t r (cachedBytes + found.record.size) rest))
    else do
      drop cfg t c
      update (goto w (.trimming t r cachedBytes rest))

def succeed (w : WorkerId) (t : TaskId) (r : TransferResult) : Code Unit := do
  let s ← read
  let state ← onStates (States.snapshot (s.tasks t).key)
  update (goto w (.completing t { success := true, transfer := r, state := state }))

def fail (w : WorkerId) (t : TaskId) (result : ScheduleResult) : Code Unit := do
  let s ← read
  onStates (States.markFailed (s.tasks t).key)
  update fun s => (s.goto w (.failed t result)).log (.markedFailed t)

def noteFailure (w : WorkerId) (t : TaskId) (result : ScheduleResult) : Code Unit := do
  let s ← read
  let state ← onStates (States.snapshot (s.tasks t).key)
  update (goto w (.completing t { result with state := state }))

/-- the section of `complete` -/
def complete (w : WorkerId) (t : TaskId) (result : ScheduleResult) (s : Scheduler) : Scheduler :=
  if (s.tasks t).completed then s.goto w .waiting
  else
    (({ s with
      pendingByExpert := if s.pendingByExpert (s.tasks t).key = some t
        then Function.update s.pendingByExpert (s.tasks t).key none else s.pendingByExpert
      }).setTask t { s.tasks t with completed := true }).goto w
        (.notifying t result (s.tasks t).callbacks)

def notify (w : WorkerId) (t : TaskId) (result : ScheduleResult) :
    List RequestId → Scheduler → Scheduler
  | [], s => (s.goto w .waiting).log (.resolved (.task t) result)
  | n :: rest, s => (s.goto w (.notifying t result rest)).log (.called n result)

/-- one step of worker `w`; `outcome` is what the transfer came to, where it waits for one -/
def work (w : WorkerId) (outcome : TransferOutcome) : WorkerPc → Code Unit
  | .waiting => update (pop w)
  | .popped t => launch w t
  | .loading t => update (awaitTransfer w t outcome)
  | .transferred t r => guarded id w t (finishTransfer w t r)
  | .ready t r => update (record w t r)
  | .trimming t r cachedBytes (c :: rest) => guarded unlock w t (trim cfg w t r cachedBytes c rest)
  | .trimming t r _ [] => update fun s => (s.goto w (.recorded t r)).unlock
  | .recorded t r => guarded id w t (succeed w t r)
  | .failing t result => fail w t result
  | .failed t result => noteFailure w t result
  | .completing t result => update (complete w t result)
  | .notifying t result callbacks => update (notify w t result callbacks)
  | .exited => pure ()

/-! ## the step function -/

inductive Action where
  | registerExpert (k : ExpertKey) (location : MemoryTier)
  | schedule (request : ScheduleRequest) (callback : Bool)
  | prefetch (prediction : PredictedExpertRequest) (callback : Bool)
  | readyResult (n : RequestId)
  | cancel (n : RequestId)
  | acquire (k : ExpertKey)
  | release (k : ExpertKey)
  /-- `order` is the order in which the hash set is traversed -/
  | expirePrefetchesBefore (layerId : LayerId) (order : List ExpertKey)
  | expireNext
  | cachedTransfer (k : ExpertKey)
  | acknowledgeResidency (k : ExpertKey) (location : MemoryTier)
  | reconcileResidency (k : ExpertKey) (location : MemoryTier)
  | shutdown
  | join
  | work (w : WorkerId) (outcome : TransferOutcome)

/-- the worker is not blocked -/
def canWork (w : WorkerId) (outcome : TransferOutcome) (s : Scheduler) : Bool :=
  match s.workers w with
  | .waiting => s.lock = none ∧ (s.stopping = true ∨ s.queue ≠ [])
  | .loading t => (s.tasks t).request.toTransfer.admits outcome
  | .ready _ _ => s.lock = none
  | .completing _ _ => s.lock = none
  | .exited => false
  | _ => true

def canAnswer (n : RequestId) (s : Scheduler) : Bool :=
  match s.calls n with
  | none => false
  | some .looking => s.lock = none
  | some _ => true

/-- the action can happen: its thread is not blocked, and is where the action continues -/
def allows (s : Scheduler) : Action → Bool
  | .registerExpert _ _ | .cancel _ | .acquire _ | .release _ => true
  | .schedule _ _ | .prefetch _ _ | .cachedTransfer _ | .acknowledgeResidency _ _
  | .reconcileResidency _ _ | .shutdown => s.lock = none
  | .readyResult n => s.canAnswer n
  | .expirePrefetchesBefore _ order => s.lock = none ∧ order.isPerm s.prefetchedReady
  | .expireNext => match s.lock with
    | some (.expiring _ _ _) => true
    | _ => false
  | .join => s.joining = true ∧ ∀ w < cfg.workerCount, s.workers w = .exited
  | .work w outcome => w < cfg.workerCount ∧ s.canWork w outcome

/-- a public operation: its caller gets the reply or the exception -/
def answer (x : Code Reply) (s : Scheduler) : Scheduler :=
  match x.exec s with
  | (.ok reply, s') => s'.log (.replied reply)
  | (.error e, s') => s'.log (.threw e)

/-- an exception that leaves a worker thread ends the program -/
def thread (x : Code Unit) (s : Scheduler) : Scheduler :=
  match x.exec s with
  | (.ok _, s') => s'
  | (.error _, s') => { s' with terminated := true }

def onExpert (x : States.Code Unit) : Code Reply := do
  onStates x
  return .done

def perform (s : Scheduler) : Action → Scheduler
  | .registerExpert k location => s.answer (onExpert (States.registerExpert k location))
  | .schedule request callback => s.answer (Scheduler.schedule cfg request callback)
  | .prefetch prediction callback => s.answer (Scheduler.prefetch cfg prediction callback)
  | .readyResult n => match s.calls n, s.requests n with
    | some call, some accepted => s.thread (Scheduler.readyResult n accepted call)
    | _, _ => s
  | .cancel n => s.cancel n
  | .acquire k => s.answer (onExpert (States.acquire k))
  | .release k => s.answer (onExpert (States.release k))
  | .expirePrefetchesBefore layerId order => { s with lock := some (.expiring layerId order 0) }
  | .expireNext => match s.lock with
    | some (.expiring layerId remaining wasted) => s.thread (expire cfg layerId wasted remaining)
    | _ => s
  | .cachedTransfer k => s.answer (Scheduler.cachedTransfer k)
  | .acknowledgeResidency k location => s.answer (Scheduler.acknowledgeResidency cfg k location)
  | .reconcileResidency k location => s.answer (Scheduler.reconcileResidency k location)
  | .shutdown => s.shutdown
  | .join => { s with joining := false }.log (.shutdownReturned true)
  | .work w outcome => s.thread (Scheduler.work cfg w outcome (s.workers w))

def step (a : Action) (s : Scheduler) : Option Scheduler :=
  if s.terminated = false ∧ s.allows cfg a = true then some (s.perform cfg a) else none

/-- the state after the actions `as` from a new scheduler, if they can happen -/
def run (as : List Action) : Option Scheduler := Runs.run (step cfg) {} as

end Scheduler

end HyperMoE
