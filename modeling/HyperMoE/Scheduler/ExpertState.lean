import Mathlib.Logic.Function.Basic
import HyperMoE.Memory.Tier

/-!
# The lifecycle of an expert

`ExpertState.cpp`: one record for each registered expert, and the transitions between lifecycle
states.  A transition is refused by an exception, and then nothing has changed.

* `ExpertState`, `States`     the record, and the table of the records;
* `transition`                the one shape all transitions have: the states it starts from, the
                              text of its refusal, and what it writes;
* `request` ... `reconcile`   the transitions of the source.

`lastUsed` is left out: nothing reads it.
-/

namespace HyperMoE

open Lib Lib.Fallible

inductive ExpertLifecycleState where
  | Requested
  | Queued
  | Loading
  | Ready
  | InUse
  | Evicting
  | Failed
  deriving DecidableEq, Repr

structure ExpertState where
  layerId : LayerId := 0
  id : ExpertId := 0
  currentLocation : MemoryTier := .Nvme
  targetLocation : MemoryTier := .Nvme
  state : ExpertLifecycleState := .Ready
  usageCount : Nat := 0
  deriving DecidableEq, Repr

namespace ExpertState

/-- at rest at a tier, with the lifecycle state `Ready` -/
def settled (e : ExpertState) (location : MemoryTier) : ExpertState :=
  { e with currentLocation := location, targetLocation := location, state := .Ready }

@[simp] theorem settled_state (e : ExpertState) (location : MemoryTier) :
    (e.settled location).state = .Ready := rfl

@[simp] theorem settled_currentLocation (e : ExpertState) (location : MemoryTier) :
    (e.settled location).currentLocation = location := rfl

end ExpertState

abbrev States := ExpertKey → Option ExpertState

namespace States

abbrev Code := Fallible Exn States

def requireLocked (k : ExpertKey) : Code ExpertState := do
  let states ← read
  orThrow (states k) (.outOfRange "expert state is not registered")

/-- `snapshot` copies the record it finds -/
def snapshot (k : ExpertKey) : Code ExpertState := requireLocked k

def set (k : ExpertKey) (e : ExpertState) (states : States) : States :=
  Function.update states k (some e)

theorem set_apply (k k' : ExpertKey) (e : ExpertState) (states : States) :
    states.set k e k' = if k' = k then some e else states k' := Function.update_apply ..

@[simp] theorem set_self (k : ExpertKey) (e : ExpertState) (states : States) :
    states.set k e k = some e := Function.update_self ..

theorem set_of_ne {k k' : ExpertKey} (h : k' ≠ k) (e : ExpertState) (states : States) :
    states.set k e k' = states k' := Function.update_of_ne h ..

/-- a record written over itself -/
theorem set_same {k : ExpertKey} {e : ExpertState} {states : States} (h : states k = some e) :
    states.set k e = states := by
  unfold set
  rw [← h]
  exact Function.update_eq_self ..

def registerExpert (k : ExpertKey) (location : MemoryTier) : Code Unit := do
  let states ← read
  throwIf ((states k).isSome = true) (.invalidArgument "expert state is already registered")
  update (set k { layerId := k.1, id := k.2, currentLocation := location,
                  targetLocation := location })

def transition (k : ExpertKey) (allowed : ExpertLifecycleState → Bool) (what : String)
    (change : ExpertState → ExpertState) : Code Unit := do
  let expert ← requireLocked k
  throwIf (allowed expert.state = false) (.logicError what)
  update (set k (change expert))

def request (k : ExpertKey) (target : MemoryTier) : Code Unit :=
  transition k (fun s => s = .Ready ∨ s = .Failed)
    "expert cannot be requested during its current transition"
    fun e => { e with targetLocation := target, state := .Requested }

def markQueued (k : ExpertKey) : Code Unit :=
  transition k (fun s => s = .Requested) "only a requested expert can become queued"
    fun e => { e with state := .Queued }

def markLoading (k : ExpertKey) : Code Unit :=
  transition k (fun s => s = .Queued) "only a queued expert can start loading"
    fun e => { e with state := .Loading }

def markReady (k : ExpertKey) (location : MemoryTier) : Code Unit :=
  transition k (fun s => s = .Loading ∨ s = .Evicting ∨ s = .Requested)
    "expert cannot become ready from its current state" fun e => e.settled location

def acquire (k : ExpertKey) : Code Unit :=
  transition k (fun s => s = .Ready) "only a ready expert can enter use"
    fun e => { e with state := .InUse, usageCount := e.usageCount + 1 }

def release (k : ExpertKey) : Code Unit :=
  transition k (fun s => s = .InUse) "only an in-use expert can be released"
    fun e => { e with state := .Ready }

def beginEviction (k : ExpertKey) (target : MemoryTier) : Code Unit :=
  transition k (fun s => s = .Ready) "only a ready expert can be evicted"
    fun e => { e with targetLocation := target, state := .Evicting }

def markFailed (k : ExpertKey) : Code Unit := do
  let expert ← requireLocked k
  update (set k { expert with state := .Failed })

def reconcile (k : ExpertKey) (location : MemoryTier) : Code Unit :=
  transition k (fun s => s ≠ .InUse ∧ s ≠ .Loading ∧ s ≠ .Queued ∧ s ≠ .Evicting)
    "cannot reconcile an active expert" fun e => e.settled location

/-! ## specifications -/

variable {states : States} {k : ExpertKey} {Q : Except Exn Unit → States → Prop}

theorem wp_snapshot {Q : Except Exn ExpertState → States → Prop} :
    wp (snapshot k) Q states ↔ match states k with
      | some e => Q (.ok e) states
      | none => Q (.error (.outOfRange "expert state is not registered")) states := by
  show wp (read >>= _) Q states ↔ _
  rw [wp_bind, wp_read]
  show wp (orThrow (states k) _) Q states ↔ _
  rw [wp_orThrow]
  cases states k <;> exact Iff.rfl

theorem wp_registerExpert {location : MemoryTier} :
    wp (registerExpert k location) Q states ↔ if (states k).isSome = true
      then Q (.error (.invalidArgument "expert state is already registered")) states
      else Q (.ok ()) (states.set k { layerId := k.1, id := k.2, currentLocation := location,
                                      targetLocation := location }) := by
  show wp (read >>= _) Q states ↔ _
  rw [wp_bind, wp_read]
  show wp (_ >>= _) Q states ↔ _
  rw [wp_bind, wp_throwIf]
  split <;> exact Iff.rfl

theorem wp_transition {allowed : ExpertLifecycleState → Bool} {what : String}
    {change : ExpertState → ExpertState} :
    wp (transition k allowed what change) Q states ↔ match states k with
      | none => Q (.error (.outOfRange "expert state is not registered")) states
      | some e => if allowed e.state = false then Q (.error (.logicError what)) states
          else Q (.ok ()) (states.set k (change e)) := by
  show wp (snapshot k >>= _) Q states ↔ _
  rw [wp_bind, wp_snapshot]
  cases states k with
  | none => exact Iff.rfl
  | some e =>
    show wp (_ >>= _) Q states ↔ _
    rw [wp_bind, wp_throwIf]
    show _ ↔ if allowed e.state = false then _ else _
    split <;> exact Iff.rfl

theorem wp_markFailed :
    wp (markFailed k) Q states ↔ match states k with
      | none => Q (.error (.outOfRange "expert state is not registered")) states
      | some e => Q (.ok ()) (states.set k { e with state := .Failed }) := by
  show wp (snapshot k >>= _) Q states ↔ _
  rw [wp_bind, wp_snapshot]
  cases states k <;> exact Iff.rfl

end States

end HyperMoE
