import Mathlib.Logic.Function.Basic
import Mathlib.Data.List.Nodup
import Mathlib.Data.List.Perm.Basic

/-!
# Shared tasks, dispatched once: the pool

A pool of tasks that several requests can share, and a crew of workers.  A request starts a task,
or joins the pending task of its key, or is answered at once; a task can be put into the queue again
with another rank, which makes its earlier entries stale; a worker claims the first live entry,
delivers one result to every callback of the task and then settles its promise.

* `Pool`        the states;
* `starts`, `answers`, `values`   what the log says of a task, of a callback, of a promise;
* `Step n`      the steps, with a crew of `n` workers.

The order of the queue is left open: a claim takes the first live entry of whatever order it is in.
-/

namespace HyperMoE.Lib.Dispatch

variable {κ π ρ : Type}

/-- the promise of a task, or of a request that is answered at once -/
inductive Promise where
  | shared (t : Nat)
  | own (n : Nat)
  deriving DecidableEq

inductive Event (ρ : Type) where
  | started (t w : Nat)
  | called (n : Nat) (r : ρ)
  | settled (p : Promise) (r : ρ)

structure Ticket (κ π : Type) where
  key : κ
  rank : π
  generation : Nat
  callbacks : List Nat
  started : Bool
  completed : Bool

structure Entry (π : Type) where
  task : Nat
  rank : π
  generation : Nat

inductive Stage (ρ : Type) where
  | idle
  | holds (t : Nat)
  | delivers (t : Nat) (r : ρ) (rest : List Nat)
  | exited

def Stage.task : Stage ρ → Option Nat
  | .holds t => some t
  | .delivers t _ _ => some t
  | _ => none

inductive Answer (ρ : Type) where
  | due
  | given (r : ρ)

structure Pool (κ π ρ : Type) where
  tickets : Nat → Ticket κ π
  next : Nat
  queue : List (Entry π)
  pending : κ → Option Nat
  workers : Nat → Stage ρ
  stopping : Bool
  /-- the promise of each request, and whether a callback came with it -/
  requests : Nat → Option (Promise × Bool)
  nextRequest : Nat
  calls : Nat → Option (Answer ρ)
  log : List (Event ρ)

/-! ## the log -/

def starts (t : Nat) : List (Event ρ) → Nat
  | [] => 0
  | .started t' _ :: log => (if t' = t then 1 else 0) + starts t log
  | .called _ _ :: log => starts t log
  | .settled _ _ :: log => starts t log

/-- the results that the callback of request `n` was called with -/
def answers (n : Nat) : List (Event ρ) → List ρ
  | [] => []
  | .started _ _ :: log => answers n log
  | .called m r :: log => if m = n then r :: answers n log else answers n log
  | .settled _ _ :: log => answers n log

/-- the values that the promise was given -/
def values (p : Promise) : List (Event ρ) → List ρ
  | [] => []
  | .started _ _ :: log => values p log
  | .called _ _ :: log => values p log
  | .settled q r :: log => if q = p then r :: values p log else values p log

/-! ## steps -/

namespace Pool

/-- nothing was requested yet; what the tickets of later tasks hold does not matter -/
def new (tickets : Nat → Ticket κ π) : Pool κ π ρ where
  tickets := tickets
  next := 0
  queue := []
  pending _ := none
  workers _ := .idle
  stopping := false
  requests _ := none
  nextRequest := 0
  calls _ := none
  log := []

variable (p : Pool κ π ρ)

def setTicket (t : Nat) (ticket : Ticket κ π) : Pool κ π ρ :=
  { p with tickets := Function.update p.tickets t ticket }

def setWorker (w : Nat) (stage : Stage ρ) : Pool κ π ρ :=
  { p with workers := Function.update p.workers w stage }

def enlist (promise : Promise) (callback : Bool) : Pool κ π ρ :=
  { p with
    requests := Function.update p.requests p.nextRequest (some (promise, callback))
    nextRequest := p.nextRequest + 1 }

def note (e : Event ρ) : Pool κ π ρ := { p with log := e :: p.log }

def current (t g : Nat) (e : Entry π) : Bool := e.task = t ∧ e.generation = g

/-- the entry still stands for its task -/
def Live (e : Entry π) : Prop :=
  (p.tickets e.task).completed = false ∧ (p.tickets e.task).started = false ∧
    e.generation = (p.tickets e.task).generation

variable {p}

theorem setWorker_cases {w w' : Nat} {stage x : Stage ρ}
    (h : (p.setWorker w stage).workers w' = x) :
    (w' = w ∧ stage = x) ∨ (w' ≠ w ∧ p.workers w' = x) := by
  replace h : Function.update p.workers w stage w' = x := h
  by_cases e : w' = w
  · exact .inl ⟨e, by rwa [e, Function.update_self] at h⟩
  · exact .inr ⟨e, by rwa [Function.update_of_ne e] at h⟩

theorem setWorker_of_ne {w w' : Nat} (stage : Stage ρ) (h : w' ≠ w) :
    (p.setWorker w stage).workers w' = p.workers w' := Function.update_of_ne h ..

theorem setTicket_self (t : Nat) (ticket : Ticket κ π) : (p.setTicket t ticket).tickets t = ticket :=
  Function.update_self ..

theorem setTicket_of_ne {t t' : Nat} (ticket : Ticket κ π) (h : t' ≠ t) :
    (p.setTicket t ticket).tickets t' = p.tickets t' := Function.update_of_ne h ..

/-- what the new ticket agrees on with the old one, all tickets agree on -/
theorem setTicket_same {β : Type} {t : Nat} {ticket : Ticket κ π} (f : Ticket κ π → β)
    (hf : f ticket = f (p.tickets t)) (t' : Nat) :
    f ((p.setTicket t ticket).tickets t') = f (p.tickets t') := by
  by_cases e : t' = t
  · rw [e, setTicket_self, hf]
  · rw [setTicket_of_ne _ e]

/-- one more entry, wherever it lands -/
theorem filter_perm {f : Entry π → Bool} {queue queue' : List (Entry π)} {e x : Entry π}
    (h : queue'.Perm (e :: queue)) (hx : (e :: queue).filter f = [x]) : queue'.filter f = [x] :=
  List.perm_singleton.mp (hx ▸ h.filter f)

end Pool

open Pool

inductive Step [DecidableEq κ] (n : Nat) : Pool κ π ρ → Pool κ π ρ → Prop where
  | accept {p : Pool κ π ρ} {k : κ} {rank : π} {callback : Bool} {queue : List (Entry π)}
      (hk : p.pending k = none) (hs : p.stopping = false)
      (hq : queue.Perm (⟨p.next, rank, 0⟩ :: p.queue)) :
      Step n p ((({ p with
        next := p.next + 1
        queue := queue
        pending := Function.update p.pending k (some p.next) }).enlist
          (.shared p.next) callback).setTicket p.next
            ⟨k, rank, 0, if callback then [p.nextRequest] else [], false, false⟩)
  | join {p : Pool κ π ρ} {k : κ} {t : Nat} {callback : Bool} (hk : p.pending k = some t) :
      Step n p ((p.enlist (.shared t) callback).setTicket t { p.tickets t with
        callbacks := if callback then (p.tickets t).callbacks ++ [p.nextRequest]
          else (p.tickets t).callbacks })
  | requeue {p : Pool κ π ρ} {k : κ} {t : Nat} {rank : π} {queue : List (Entry π)}
      (hk : p.pending k = some t) (hs : p.stopping = false) (ht : (p.tickets t).started = false)
      (hq : queue.Perm (⟨t, rank, (p.tickets t).generation + 1⟩ :: p.queue)) :
      Step n p (({ p with queue := queue }).setTicket t { p.tickets t with
        rank := rank
        generation := (p.tickets t).generation + 1 })
  | acceptOwn {p : Pool κ π ρ} {callback : Bool} :
      Step n p { p.enlist (.own p.nextRequest) callback with
        calls := Function.update p.calls p.nextRequest (some .due) }
  | stop {p : Pool κ π ρ} : Step n p { p with stopping := true }
  | claim {p : Pool κ π ρ} {w : Nat} {before after : List (Entry π)} {e : Entry π} (hw : w < n)
      (hi : p.workers w = .idle) (hq : p.queue = before ++ e :: after)
      (hstale : ∀ x ∈ before, ¬ p.Live x) (hlive : p.Live e) :
      Step n p (((({ p with queue := after }).setTicket e.task
        { p.tickets e.task with started := true }).setWorker w (.holds e.task)).note
          (.started e.task w))
  | drain {p : Pool κ π ρ} (hstale : ∀ x ∈ p.queue, ¬ p.Live x) : Step n p { p with queue := [] }
  | exit {p : Pool κ π ρ} {w : Nat} (hw : w < n) (hi : p.workers w = .idle)
      (hs : p.stopping = true) (hq : p.queue = []) : Step n p (p.setWorker w .exited)
  | deliver {p : Pool κ π ρ} {w t : Nat} {r : ρ} (hw : p.workers w = .holds t) :
      Step n p ((({ p with
        pending := Function.update p.pending (p.tickets t).key none }).setTicket t
          { p.tickets t with completed := true }).setWorker w
            (.delivers t r (p.tickets t).callbacks))
  | call {p : Pool κ π ρ} {w t m : Nat} {r : ρ} {rest : List Nat}
      (hw : p.workers w = .delivers t r (m :: rest)) :
      Step n p ((p.setWorker w (.delivers t r rest)).note (.called m r))
  | settle {p : Pool κ π ρ} {w t : Nat} {r : ρ} (hw : p.workers w = .delivers t r []) :
      Step n p ((p.setWorker w .idle).note (.settled (.shared t) r))
  | answer {p : Pool κ π ρ} {m : Nat} {r : ρ} {callback : Bool} (hc : p.calls m = some .due)
      (hr : p.requests m = some (.own m, callback)) :
      Step n p (if callback
        then ({ p with calls := Function.update p.calls m (some (.given r)) }).note (.called m r)
        else { p with calls := Function.update p.calls m (some (.given r)) })
  | settleOwn {p : Pool κ π ρ} {m : Nat} {r : ρ} (hc : p.calls m = some (.given r)) :
      Step n p (({ p with calls := Function.update p.calls m none }).note (.settled (.own m) r))

end HyperMoE.Lib.Dispatch
