import HyperMoE.Lib.Fallible
import HyperMoE.Lib.Handoff
import HyperMoE.Lib.Runs
import HyperMoE.Memory.Tier
import HyperMoE.Storage.DiskLoader

/-!
# The transfer manager

`TransferManager.cpp`: transfers are submitted to a queue; each worker takes the best of them, loads
or checks its source, copies it to the destination and resolves the promise.

* `PinnedBuffer`, `DeviceBuffer`     buffers, with the backend they belong to;
* `TransferRequest`, `TransferResult`   what is submitted, and what a promise is resolved with;
* `loadSource`, `transfer`           the two halves of the `try` block of `workerLoop`;
* `streamed`                         the lock or the stream, the event and the copy between them;
* `Stage`, `TransferManager`         where a worker is in the loop, and the state they share;
* `step`                             one action of a client, of a worker or of `shutdown`.

What the system, the backend and a callback answer is an argument of the step (`Answers`); a copy that
does not throw is faithful.  The lock of a stream is taken and released within one stage, so no other
worker is seen to wait for it.  Times and bandwidths are left out: nothing below reads them.
-/

namespace HyperMoE.Memory

open Lib Lib.Fallible Storage

/-! ## buffers -/

inductive BackendKind where
  | Cpu
  | Cuda
  deriving DecidableEq, Repr

/-- a backend, by its address and what it answers about itself -/
structure Backend where
  address : Nat
  kind : BackendKind := .Cpu
  isAvailable : Bool := true
  supportsPinnedMemory : Bool := false
  /-- whether the device has a CUDA runtime -/
  runtimeAvailable : Bool := true
  deriving DecidableEq, Repr

structure PinnedBuffer where
  backend : Nat
  isPinned : Bool
  bytes : Bytes
  deriving DecidableEq, Repr

structure DeviceBuffer where
  backend : Nat
  bytes : Bytes
  deriving DecidableEq, Repr

def PinnedBuffer.size (p : PinnedBuffer) : Nat := p.bytes.length
def DeviceBuffer.size (d : DeviceBuffer) : Nat := d.bytes.length

/-- the bytes at the target when `size` bytes were copied there -/
def memcpy (size : Nat) (source target : Bytes) : Bytes := source.take size ++ target.drop size

/-! ## requests and results -/

structure TransferRequest where
  layerId : UInt32
  expertId : UInt32
  destination : MemoryTier := .Vram
  priority : Int := 0
  source : MemoryTier := .Nvme
  hostBuffer : Option Bytes := none
  sourcePinnedBuffer : Option PinnedBuffer := none
  sourceDeviceBuffer : Option DeviceBuffer := none
  /-- whether there is one -/
  callback : Bool := false
  deriving DecidableEq, Repr

structure TransferResult where
  status : TransferStatus := .Cancelled
  record : Storage.ExpertRecord := ⟨0, 0, 0, 0, 0, 0⟩
  buffer : Option Bytes := none
  pinnedBuffer : Option PinnedBuffer := none
  deviceBuffer : Option DeviceBuffer := none
  source : MemoryTier := .Nvme
  destination : MemoryTier := .Ram
  usedPinnedMemory : Bool := false
  nvmeBytes : UInt64 := 0
  ramToVramBytes : UInt64 := 0
  completionOrder : Nat := 0
  cudaTransfer : Bool := false
  deriving DecidableEq, Repr

def cancelledResult : TransferResult := {}

/-- a value, or the exception that `set_exception` stores -/
abbrev Outcome := Except Exn TransferResult

/-! ## what a step asks for -/

/-- the calls that may throw -/
inductive Call where
  | allocateBuffer
  | allocatePinned
  | allocateDevice
  | createStream
  | createEvent
  | copy
  | recordEvent
  | waitEvent
  | callback
  deriving DecidableEq, Repr

structure Answers where
  disk : ReadAnswers := {}
  fails : Call → Option Exn := fun _ => none

def Answers.attempt (a : Answers) (call : Call) : Except Exn Unit :=
  match a.fails call with
  | none => .ok ()
  | some e => .error e

structure Environment where
  loader : DiskLoader
  backend : Backend

def Environment.index (env : Environment) : ExpertIndex := env.loader.store.index

/-! ## the source -/

/-- the one of `sourceBuffer`, `sourcePinned` and `sourceDevice` that is set -/
inductive Source where
  | buffer (bytes : Bytes)
  | pinned (buffer : PinnedBuffer)
  | device (buffer : DeviceBuffer)
  deriving DecidableEq, Repr

def Source.bytes : Source → Bytes
  | .buffer bytes => bytes
  | .pinned p => p.bytes
  | .device d => d.bytes

structure Loaded where
  record : Storage.ExpertRecord
  source : Source
  deriving DecidableEq, Repr

def storageError (e : StorageError) : Exn := .runtimeError e.what

/-- `if (!x || x->size() != record->size) throw` -/
def sized {α : Type} (x : Option α) (size : α → Nat) (record : Storage.ExpertRecord)
    (what : String) : Except Exn α :=
  match x with
  | none => .error (.invalidArgument what)
  | some a => if size a ≠ record.size.toNat then .error (.invalidArgument what) else .ok a

def loadSource (env : Environment) (answers : Answers) (r : TransferRequest) : Except Exn Loaded :=
  match r.source with
  | .Nvme => do
    let loaded ← (env.loader.load answers.disk r.layerId r.expertId).mapError storageError
    answers.attempt .allocateBuffer
    return ⟨loaded.record, .buffer loaded.bytes⟩
  | source =>
    match env.index.find r.layerId r.expertId with
    | none => .error (storageError ⟨"transfer expert is not indexed"⟩)
    | some record =>
      match source with
      | .PinnedRam => do
        let p ← sized r.sourcePinnedBuffer PinnedBuffer.size record
          "pinned source buffer size mismatch"
        return ⟨record, .pinned p⟩
      | .Vram => do
        let d ← sized r.sourceDeviceBuffer DeviceBuffer.size record
          "device source buffer size mismatch"
        Outcome.throwIf (d.backend ≠ env.backend.address)
          (.invalidArgument "device source belongs to another backend")
        return ⟨record, .device d⟩
      | _ => do
        let bytes ← sized r.hostBuffer List.length record "RAM source buffer size mismatch"
        return ⟨record, .buffer bytes⟩

/-! ## streams and events -/

inductive CudaStreamRole where
  | Transfer
  | Prefetch
  deriving DecidableEq, Repr

/-- the locals of one turn of the loop (a handle is there, or it is null), and how many handles the
backend has made and not destroyed.  A backend that makes null handles has nothing to destroy. -/
structure Streams where
  stream : Bool := false
  completion : Bool := false
  ownsStream : Bool := false
  cudaStreamLock : Option CudaStreamRole := none
  openStreams : Nat := 0
  openEvents : Nat := 0
  deriving DecidableEq, Repr

namespace Streams

/-- the beginning of a turn -/
def declare (s : Streams) : Streams :=
  { openStreams := s.openStreams, openEvents := s.openEvents }

def lock (role : CudaStreamRole) (s : Streams) : Streams :=
  { s with cudaStreamLock := some role, stream := true }

def createStream (s : Streams) : Streams :=
  { s with stream := true, ownsStream := true, openStreams := s.openStreams + 1 }

def createEvent (s : Streams) : Streams :=
  { s with completion := true, openEvents := s.openEvents + 1 }

def destroyEvent (s : Streams) : Streams :=
  if s.completion then { s with completion := false, openEvents := s.openEvents - 1 } else s

def destroyStream (s : Streams) : Streams :=
  if s.stream && s.ownsStream then
    { s with stream := false, ownsStream := false, openStreams := s.openStreams - 1 }
  else { s with stream := false, ownsStream := false }

def unlock (s : Streams) : Streams := { s with cudaStreamLock := none }

end Streams

abbrev Code := Fallible Exn Streams

def attempt (answers : Answers) (call : Call) : Code Unit := settle (answers.attempt call)

/-- a stream, an event, the copy, and what the code does before it gives both back -/
def streamed {α : Type} (env : Environment) (answers : Answers) (role : CudaStreamRole)
    (inside : Code α) : Code α := do
  if env.backend.kind = .Cuda then update (Streams.lock role)
  else do
    attempt answers .createStream
    update Streams.createStream
  attempt answers .createEvent
  update Streams.createEvent
  attempt answers .copy
  attempt answers .recordEvent
  attempt answers .waitEvent
  let a ← inside
  update Streams.destroyEvent
  update Streams.destroyStream
  update Streams.unlock
  return a

/-! ## the transfer -/

/-- contents of new memory, which are overwritten before they are read -/
def fresh (size : UInt64) : Bytes := List.replicate size.toNat 0

def makePinned (env : Environment) (answers : Answers) (size : UInt64) : Code PinnedBuffer := do
  throwIf (size = 0) (.invalidArgument "PinnedBuffer size must be nonzero")
  attempt answers .allocatePinned
  return ⟨env.backend.address, env.backend.supportsPinnedMemory, fresh size⟩

/-- from the pool, or from the backend itself -/
def makeDevice (env : Environment) (answers : Answers) (size : UInt64) : Code DeviceBuffer := do
  throwIf (size = 0) (.invalidArgument (if env.backend.kind = .Cuda
    then "memory-pool allocation must be nonzero" else "DeviceBuffer size must be nonzero"))
  attempt answers .allocateDevice
  return ⟨env.backend.address, fresh size⟩

def PinnedBuffer.filled (p : PinnedBuffer) (source : Bytes) : PinnedBuffer :=
  { p with bytes := memcpy p.size source p.bytes }

def DeviceBuffer.filled (d : DeviceBuffer) (size : Nat) (source : Bytes) : DeviceBuffer :=
  { d with bytes := memcpy size source d.bytes }

/-- the result before the copy -/
def begun (r : TransferRequest) (record : Storage.ExpertRecord) : TransferResult where
  status := .Completed
  record := record
  source := r.source
  destination := r.destination
  nvmeBytes := if r.source = .Nvme then record.size else 0

/-- the copy from a device into new pinned memory -/
def download {α : Type} (env : Environment) (answers : Answers) (record : Storage.ExpertRecord)
    (d : DeviceBuffer) (inside : PinnedBuffer → Code α) : Code α := do
  let pinned ← makePinned env answers record.size
  streamed env answers .Transfer (inside (pinned.filled d.bytes))

def toRam (env : Environment) (answers : Answers) (l : Loaded) (result : TransferResult) :
    Code TransferResult :=
  match l.source with
  | .device d =>
    download env answers l.record d fun pinned => do
      attempt answers .allocateBuffer
      return { result with
        buffer := some pinned.bytes
        usedPinnedMemory := pinned.isPinned
        cudaTransfer := env.backend.kind = .Cuda }
  | .buffer bytes => return { result with buffer := some bytes }
  | .pinned p => do
    attempt answers .allocateBuffer
    return { result with buffer := some p.bytes }

def toPinned (env : Environment) (answers : Answers) (l : Loaded) (result : TransferResult) :
    Code TransferResult :=
  match l.source with
  | .device d =>
    download env answers l.record d fun pinned => return { result with
      pinnedBuffer := some pinned
      usedPinnedMemory := pinned.isPinned
      cudaTransfer := env.backend.kind = .Cuda }
  | source => do
    let pinned ← makePinned env answers l.record.size
    return { result with
      pinnedBuffer := some (pinned.filled source.bytes)
      usedPinnedMemory := pinned.isPinned }

def kPrefetchPriority : Int := 300

/-- the staging buffer of an upload -/
def stage (env : Environment) (answers : Answers) (record : Storage.ExpertRecord) (bytes : Bytes) :
    Code PinnedBuffer := do
  let staging ← makePinned env answers record.size
  return staging.filled bytes

def upload (env : Environment) (answers : Answers) (r : TransferRequest)
    (record : Storage.ExpertRecord) (result : TransferResult) (staging : PinnedBuffer) :
    Code TransferResult := do
  let device ← makeDevice env answers record.size
  let role := if r.priority = kPrefetchPriority then CudaStreamRole.Prefetch else .Transfer
  streamed env answers role do
    return { result with
      ramToVramBytes := record.size
      cudaTransfer := env.backend.kind = .Cuda
      usedPinnedMemory := staging.isPinned
      deviceBuffer := some (device.filled staging.size staging.bytes) }

def toVram (env : Environment) (answers : Answers) (r : TransferRequest) (l : Loaded)
    (result : TransferResult) : Code TransferResult :=
  match l.source with
  | .device d => return { result with deviceBuffer := some d, usedPinnedMemory := false }
  | .pinned p => upload env answers r l.record result p
  | .buffer bytes => do
    let staging ← stage env answers l.record bytes
    upload env answers r l.record result staging

def transfer (env : Environment) (answers : Answers) (r : TransferRequest) (l : Loaded) :
    Code TransferResult :=
  let result := begun r l.record
  match r.destination with
  | .Ram => toRam env answers l result
  | .PinnedRam => toPinned env answers l result
  | .Vram => toVram env answers r l result
  | .Nvme => throw (.invalidArgument "transfer destination cannot be NVMe")

/-- with the `catch` clause; the lock goes out of scope behind it -/
def tryTransfer (env : Environment) (answers : Answers) (r : TransferRequest) (l : Loaded) :
    Code TransferResult := do
  update Streams.declare
  tryCatch (transfer env answers r l) fun e => do
    update Streams.destroyEvent
    update Streams.destroyStream
    update Streams.unlock
    throw e

/-! ## tasks and stages -/

structure Task where
  request : TransferRequest
  sequence : Nat
  deriving DecidableEq, Repr

/-- `HigherPriority`: the left task comes behind the right one -/
def higherPriority (left right : Task) : Bool :=
  if left.request.priority ≠ right.request.priority then
    left.request.priority < right.request.priority
  else left.sequence > right.sequence

inductive Stage where
  | waiting
  /-- before the first look at the flag -/
  | popped (t : Task)
  | loading (t : Task)
  /-- before the second -/
  | loaded (t : Task) (l : Loaded)
  | transferring (t : Task) (l : Loaded)
  /-- before the third -/
  | transferred (t : Task) (r : TransferResult)
  | ordering (t : Task) (r : TransferResult)
  | calling (t : Task) (r : TransferResult)
  /-- before `set_value` or `set_exception` -/
  | delivering (t : Task) (o : Outcome)
  | exited

def Stage.task : Stage → Option Task
  | .waiting | .exited => none
  | .popped t | .loading t | .loaded t _ | .transferring t _ | .transferred t _ | .ordering t _
  | .calling t _ | .delivering t _ => some t

/-- a device buffer that is handed on without a look at the flag -/
def passesOn (r : TransferRequest) (l : Loaded) : Bool :=
  match r.destination, l.source with
  | .Vram, .device _ => true
  | _, _ => false

def Stage.ofTransfer (t : Task) (l : Loaded) : Outcome → Stage
  | .error e => .delivering t (.error e)
  | .ok r => if passesOn t.request l then .ordering t r else .transferred t r

def Stage.ofLoad (t : Task) : Except Exn Loaded → Stage
  | .error e => .delivering t (.error e)
  | .ok l => .loaded t l

/-- the stage behind a stage that delivers nothing; `order` is what `fetch_add` answers -/
def Stage.advance (env : Environment) (answers : Answers) (cancelled : Bool) (order : Nat)
    (streams : Streams) : Stage → Stage × Streams
  | .popped t => (if cancelled then .delivering t (.ok cancelledResult) else .loading t, streams)
  | .loading t => (.ofLoad t (loadSource env answers t.request), streams)
  | .loaded t l =>
    (if cancelled then .delivering t (.ok cancelledResult) else .transferring t l, streams)
  | .transferring t l =>
    let (o, streams) := (tryTransfer env answers t.request l).exec streams
    (.ofTransfer t l o, streams)
  | .transferred t r =>
    (if cancelled then .delivering t (.ok cancelledResult) else .ordering t r, streams)
  | .ordering t r => (.calling t { r with completionOrder := order }, streams)
  | .calling t r =>
    (.delivering t ((if t.request.callback then answers.attempt .callback else .ok ()).map
      fun _ => r), streams)
  | stage => (stage, streams)

/-- whether the stage is the one that counts the completion -/
def Stage.counts : Stage → Bool
  | .ordering _ _ => true
  | _ => false

/-! ## the shared state -/

/-- a call of `shutdown` -/
inductive ShutdownCall where
  | joining
  | returned
  deriving DecidableEq, Repr

structure TransferManager where
  /-- every task that `submit` took, in the order of their numbers -/
  accepted : List Task := []
  queue : List Task := []
  workers : List Stage
  /-- the numbers of the tasks whose flag is set -/
  cancelled : List Nat := []
  stopping : Bool := false
  nextCompletion : Nat := 0
  streams : Streams := {}
  /-- the promises that were resolved, the last one first -/
  resolved : List (Nat × Outcome) := []
  shutdowns : List ShutdownCall := []

namespace TransferManager

/-- the constructor; a loader and a backend that are not null -/
def make (env : Environment) (workerCount : Nat) : Except Exn TransferManager := do
  Outcome.throwIf (workerCount = 0)
    (.invalidArgument "TransferManager requires at least one worker")
  Outcome.throwIf (env.backend.isAvailable = false)
    (.invalidArgument "TransferManager requires an available backend")
  Outcome.throwIf (env.backend.kind = .Cuda ∧ env.backend.runtimeAvailable = false)
    (.runtimeError "CUDA backend has no matching runtime device")
  return { workers := List.replicate workerCount .waiting }

def submit (r : TransferRequest) (s : TransferManager) : Except Exn TransferManager := do
  Outcome.throwIf (r.destination = .Nvme)
    (.invalidArgument "a load destination cannot be NVMe")
  Outcome.throwIf (s.stopping = true) (.runtimeError "TransferManager is shutting down")
  let task : Task := ⟨r, s.accepted.length⟩
  return { s with accepted := s.accepted ++ [task], queue := task :: s.queue }

/-- the beginning of `shutdown`; a call that finds it begun returns -/
def shutdown (s : TransferManager) : TransferManager :=
  if s.stopping then { s with shutdowns := s.shutdowns ++ [.returned] }
  else { s with
    stopping := true
    cancelled := s.queue.map Task.sequence ++ s.cancelled
    shutdowns := s.shutdowns ++ [.joining] }

def take (w : Nat) (s : TransferManager) : Option TransferManager :=
  match s.workers[w]?, best higherPriority s.queue with
  | some .waiting, some task => some { s with
    queue := s.queue.erase task
    workers := s.workers.set w (.popped task) }
  | _, _ => none

def exit (w : Nat) (s : TransferManager) : Option TransferManager :=
  match s.workers[w]? with
  | some .waiting =>
    if s.stopping = true ∧ s.queue = [] then some { s with workers := s.workers.set w .exited }
    else none
  | _ => none

/-- one stage of the worker -/
def work (env : Environment) (w : Nat) (answers : Answers) (s : TransferManager) :
    Option TransferManager :=
  match s.workers[w]? with
  | none | some .waiting | some .exited => none
  | some (.delivering t o) => some { s with
    workers := s.workers.set w .waiting
    resolved := (t.sequence, o) :: s.resolved }
  | some stage =>
    let cancelled := (stage.task.map fun t => decide (t.sequence ∈ s.cancelled)).getD false
    let (next, streams) := stage.advance env answers cancelled s.nextCompletion s.streams
    some { s with
      workers := s.workers.set w next
      streams := streams
      nextCompletion := if stage.counts then s.nextCompletion + 1 else s.nextCompletion }

/-- the joining call returns when every worker has -/
def join (call : Nat) (s : TransferManager) : Option TransferManager :=
  if s.shutdowns[call]? = some .joining ∧ s.workers.all (· matches .exited) then
    some { s with shutdowns := s.shutdowns.set call .returned }
  else none

inductive Action where
  | submit (r : TransferRequest)
  /-- `cancel` on the handle of the task with this number -/
  | cancel (sequence : Nat)
  | take (w : Nat)
  | work (w : Nat) (answers : Answers)
  | exit (w : Nat)
  | shutdown
  | join (call : Nat)

/-- `none` where the action cannot happen; a `submit` that throws changes nothing -/
def step (env : Environment) (a : Action) (s : TransferManager) : Option TransferManager :=
  match a with
  | .submit r =>
    match s.submit r with
    | .ok s' => some s'
    | .error _ => some s
  | .cancel sequence =>
    if sequence < s.accepted.length then some { s with cancelled := sequence :: s.cancelled }
    else none
  | .take w => s.take w
  | .work w answers => s.work env w answers
  | .exit w => s.exit w
  | .shutdown => some s.shutdown
  | .join call => s.join call

def run (env : Environment) (s : TransferManager) (as : List Action) : Option TransferManager :=
  Runs.run (step env) s as

end TransferManager

end HyperMoE.Memory
