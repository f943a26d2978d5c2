import Mathlib.Data.Rat.Floor
import Mathlib.Logic.Function.Basic
import HyperMoE.Lib.Fallible
import HyperMoE.Lib.Runs
import HyperMoE.Lib.Table
import HyperMoE.Memory.Tier

/-!
# GpuEventQueue: operations in flight on a device

`GpuEventQueue.cpp` over a device with streams.  An event recorded on a stream marks the work put on
it so far; it is ready when the device has completed that much.  The calls of the event API do not
throw; the insertion of a record may fail for memory.

* `begin_`, `finish`, `abort`, `collect`, `teardown`   the queue, and the destructors;
* `step`                    one call of the queue, the caller putting work on a stream, or the device
                            completing some; between two queries of `collect` it may complete more;

A moved scope is the same scope.  The totals of the profiler are left out: `timed` lists its samples.
-/

namespace HyperMoE.Profiling

open Lib Lib.Fallible

inductive GpuOperation where
  | Fp32Gemm | Int8Gemm | ExpertFp32Gemm | ExpertInt8Gemm
  | Activation | Elementwise | RMSNorm | RoPE | Router | AttentionCore
  | Gather | Scatter | Zero | AttentionRegion | ExpertRegion
  deriving DecidableEq, Repr

abbrev StreamHandle := Nat

/-- `none` is the null handle -/
abbrev EventHandle := Option Nat

/-- what a `shared_ptr` refers to -/
abbrev Owner := Nat

structure Device where
  created : Nat := 0
  recorded : Nat → Option (StreamHandle × Nat) := fun _ => none
  enqueued : StreamHandle → Nat := fun _ => 0
  completed : StreamHandle → Nat := fun _ => 0

namespace Device

def ready (d : Device) (event : EventHandle) : Bool :=
  match event.bind d.recorded with
  | some (stream, position) => position ≤ d.completed stream
  | none => false

/-- nothing on the stream is outstanding -/
def Drained (d : Device) (stream : StreamHandle) : Prop := d.completed stream = d.enqueued stream

/-- the device completes work, up to what was put on each stream -/
def advance (target : StreamHandle → Nat) (d : Device) : Device :=
  { d with completed := fun stream =>
      Nat.max (d.completed stream) (Nat.min (target stream) (d.enqueued stream)) }

def record (event : Nat) (stream : StreamHandle) (d : Device) : Device :=
  { d with recorded := Function.update d.recorded event (some (stream, d.enqueued stream)) }

def synchronize (stream : StreamHandle) (d : Device) : Device :=
  { d with completed := Function.update d.completed stream (d.enqueued stream) }

end Device

/-- `id` numbers the scopes in the order of `begin` -/
structure Record where
  id : Nat
  operation : GpuOperation
  stream : StreamHandle
  start : EventHandle
  stop : EventHandle
  owners : List Owner
  deriving DecidableEq

/-- `queue` says that `queue_` is not null -/
structure Scope extends Record where
  queue : Bool

/-- an operation begun: what it was given -/
structure Begun where
  id : Nat
  stream : StreamHandle
  owners : List Owner
  deriving DecidableEq

def Record.begun (r : Record) : Begun := ⟨r.id, r.stream, r.owners⟩

def Record.events (r : Record) : List Nat := r.start.toList ++ r.stop.toList

/-- the owners of an operation dropped, with the device at that time -/
structure Release where
  record : Record
  device : Device

structure World where
  profiler : Bool
  device : Device := {}
  alive : Bool := true
  pending : List Record := []
  scopes : Table Nat Scope := ∅
  begun : List Begun := []
  destroyed : List Nat := []
  timed : List (Nat × GpuOperation × Int64) := []
  released : List Release := []

/-- what the device and the clock do during one `collect`: the work completed before each query, and
the elapsed milliseconds, `none` where they are not finite.  The language leaves open what a number
that is no `int64` converts to: the platform says -/
structure Environment where
  advance : Nat → StreamHandle → Nat
  elapsedMs : EventHandle → EventHandle → Option ℚ
  outOfRange : ℚ → Int64

abbrev Code := Fallible Exn World

/-! ## the event API -/

def onDevice (f : Device → Device) : Code Unit := update fun w => { w with device := f w.device }

def create (_timing : Bool) : Code EventHandle :=
  updateGet fun w =>
    (some w.device.created, { w with device := { w.device with created := w.device.created + 1 } })

def record (event : EventHandle) (stream : StreamHandle) : Code Unit :=
  match event with
  | none => pure ()
  | some e => onDevice (Device.record e stream)

def ready (env : Environment) (i : Nat) (event : EventHandle) : Code Bool := do
  onDevice (Device.advance (env.advance i))
  let w ← read
  pure (w.device.ready event)

/-- destroying the null handle is nothing -/
def destroy (event : EventHandle) : Code Unit :=
  update fun w => { w with destroyed := w.destroyed ++ event.toList }

def synchronize (stream : StreamHandle) : Code Unit := onDevice (Device.synchronize stream)

/-- the owners that `r` holds go out of scope -/
def release (r : Record) : Code Unit :=
  update fun w => { w with released := w.released ++ [⟨r, w.device⟩] }

/-- `duration_cast` of milliseconds that are not negative: the number of nanoseconds is cut.  The
product is exact, for a `float` times 10^6 fits a `double` -/
def nanoseconds (env : Environment) (milliseconds : ℚ) : Int64 :=
  if milliseconds * 1000000 < 2 ^ 63 then .ofInt (milliseconds * 1000000).floor
  else env.outOfRange (milliseconds * 1000000)

def recordGpuTime (id : Nat) (operation : GpuOperation) (duration : Int64) : Code Unit := do
  throwIf (duration < 0) (.invalidArgument "negative GPU duration")
  update fun w => { w with timed := w.timed ++ [(id, operation, duration)] }

/-! ## the queue -/

def begin_ (operation : GpuOperation) (stream : StreamHandle) (owners : List Owner) :
    Code Scope := do
  let w ← read
  let start ←
    if w.profiler then do
      let start ← create true
      record start stream
      pure start
    else pure none
  let stop ← create w.profiler
  pure ⟨⟨w.begun.length, operation, stream, start, stop, owners⟩, true⟩

/-- `allocates` is false where `push_back` fails for memory -/
def finish (allocates : Bool) (scope : Scope) : Code Scope := do
  record scope.stop scope.stream
  throwIf (allocates = false) (.other "std::bad_alloc")
  update fun w => { w with pending := w.pending ++ [scope.toRecord] }
  pure { scope with queue := false, owners := [] }

def Scope.finish (allocates : Bool) (scope : Scope) : Code Scope := do
  throwIf (scope.queue = false) (.logicError "GPU operation scope already finished")
  Profiling.finish allocates scope

def abort (scope : Scope) : Code Unit := do
  synchronize scope.stream
  destroy scope.start
  destroy scope.stop
  release scope.toRecord

/-- `~Scope` -/
def Scope.destruct (scope : Scope) : Code Unit := if scope.queue then abort scope else pure ()

/-- the sample of one record -/
def sample (env : Environment) (it : Record) : Code Unit := do
  let w ← read
  if w.profiler then
    match env.elapsedMs it.start it.stop with
    | none => throw (.runtimeError "GPU event elapsed time is invalid")
    | some milliseconds => do
      throwIf (milliseconds < 0) (.runtimeError "GPU event elapsed time is invalid")
      recordGpuTime it.id it.operation (nanoseconds env milliseconds)
  else pure ()

/-- the loop of `collect` after `kept`, at query `i` -/
def collectLoop (env : Environment) : Nat → List Record → List Record → Code Unit
  | _, _, [] => pure ()
  | i, kept, it :: rest => do
    let done ← ready env i it.stop
    if done then do
      sample env it
      destroy it.start
      destroy it.stop
      update fun w => { w with pending := kept ++ rest }
      release it
      collectLoop env (i + 1) kept rest
    else collectLoop env (i + 1) (kept ++ [it]) rest

def collect (env : Environment) : Code Unit := do
  let w ← read
  collectLoop env 0 [] w.pending

def drain : List Record → Code Unit
  | [] => pure ()
  | record :: rest => do
    synchronize record.stream
    destroy record.start
    destroy record.stop
    drain rest

def releaseAll : List Record → Code Unit
  | [] => pure ()
  | record :: rest => do
    release record
    releaseAll rest

/-- `~GpuEventQueue`, with the destruction of `pending_` after its body -/
def teardown : Code Unit := do
  let w ← read
  drain w.pending
  releaseAll w.pending
  update fun w => { w with pending := [], alive := false }

/-! ## steps -/

inductive Action where
  | begin_ (operation : GpuOperation) (stream : StreamHandle) (owners : List Owner)
  | finish (id : Nat) (allocates : Bool)
  | destruct (id : Nat)
  | collect (env : Environment)
  | teardown
  | enqueue (stream : StreamHandle)
  | complete (target : StreamHandle → Nat)

/-- the scopes that still refer to the queue -/
def World.open_ (w : World) : List Scope := (Table.values w.scopes).filter (·.queue)

/-- a scope must not outlive the queue -/
def step : Action → World → Option World
  | .begin_ operation stream owners, w =>
    if w.alive then
      some ((do
        let scope ← begin_ operation stream owners
        update fun w =>
          { w with scopes := w.scopes.insert scope.id scope, begun := w.begun ++ [scope.begun] }
        : Code Unit).exec w).2
    else none
  | .finish id allocates, w =>
    match w.scopes.lookup id with
    | none => none
    | some scope =>
      some ((do
        let scope ← scope.finish allocates
        update fun w => { w with scopes := w.scopes.insert id scope } : Code Unit).exec w).2
  | .destruct id, w =>
    match w.scopes.lookup id with
    | none => none
    | some scope =>
      some ((do
        scope.destruct
        update fun w => { w with scopes := w.scopes.erase id } : Code Unit).exec w).2
  | .collect env, w => if w.alive then some ((collect env).exec w).2 else none
  | .teardown, w => if w.alive ∧ w.open_ = [] then some (teardown.exec w).2 else none
  | .enqueue stream, w =>
    some { w with device := { w.device with
      enqueued := Function.update w.device.enqueued stream (w.device.enqueued stream + 1) } }
  | .complete target, w => some { w with device := w.device.advance target }

def start (profiler : Bool) : World := { profiler := profiler }

end HyperMoE.Profiling
