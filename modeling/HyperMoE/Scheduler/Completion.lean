import HyperMoE.Scheduler.Lifecycle

/-!
# Every accepted request is answered exactly once

`run_completes` collects what the pool's invariants say of the scheduler in its own terms: one
pending task per expert, one live entry per waiting task, one start, one result for the promise and
the same one for every callback.  "At most once" holds in every state; "at least once" follows from
three facts: no thread is ever stuck before all is answered, a thread that is at work comes nearer
to its end with each step, and `shutdown` waits for all workers.

* `startCount`, `deliveries`, `callbackCalls`   what the history says;
* `Stuck`, `rest_of_stuck`, `settled_of_rest`   only a scheduler that owes nothing is stuck;
* `owes`, `Change.nearer`, `wellFounded_less`   what a thread still has to do gets less;
* `Completes`, `run_completes`                  the guarantees, in every reachable state.
-/

namespace HyperMoE.Scheduler

open Lib

variable {cfg : SchedulerConfig} {s s' : Scheduler}

/-! ## the history -/

def startCount (t : TaskId) (history : List Event) : Nat :=
  history.countP fun e => match e with
    | .started t' _ => t' = t
    | _ => false

/-- the results that the future was given -/
def deliveries (f : Future) (history : List Event) : List ScheduleResult :=
  history.filterMap fun e => match e with
    | .resolved g result => if g = f then some result else none
    | _ => none

/-- the results that the callback of request `n` was called with -/
def callbackCalls (n : RequestId) (history : List Event) : List ScheduleResult :=
  history.filterMap fun e => match e with
    | .called m result => if m = n then some result else none
    | _ => none

theorem startCount_eq (t : TaskId) (history : List Event) :
    startCount t history = Dispatch.starts t (history.filterMap said) := by
  induction history with
  | nil => rfl
  | cons e history ih =>
    have hcons : startCount t (e :: history) = startCount t history + (if (match e with
        | .started t' _ => decide (t' = t)
        | _ => false) = true then 1 else 0) := List.countP_cons
    rw [hcons, ih]
    cases e with
    | started t' w =>
      show _ = (if t' = t then 1 else 0) + Dispatch.starts t (history.filterMap said)
      rw [Nat.add_comm]
      congr 1
      simp
    | _ => rfl

theorem promise_inj {f g : Future} : promise g = promise f ↔ g = f := by
  cases f <;> cases g <;> simp [promise]

theorem deliveries_eq (f : Future) (history : List Event) :
    deliveries f history = Dispatch.values (promise f) (history.filterMap said) := by
  induction history with
  | nil => rfl
  | cons e history ih =>
    cases e with
    | resolved g result =>
      have hvalues : Dispatch.values (promise f)
          ((Event.resolved g result :: history).filterMap said) = if promise g = promise f
            then result :: Dispatch.values (promise f) (history.filterMap said)
            else Dispatch.values (promise f) (history.filterMap said) := rfl
      rw [hvalues, ← ih]
      by_cases h : g = f
      · rw [if_pos (promise_inj.mpr h)]
        exact List.filterMap_cons_some (if_pos h)
      · rw [if_neg fun hp => h (promise_inj.mp hp)]
        exact List.filterMap_cons_none (if_neg h)
    | _ => exact ih

theorem callbackCalls_eq (n : RequestId) (history : List Event) :
    callbackCalls n history = Dispatch.answers n (history.filterMap said) := by
  induction history with
  | nil => rfl
  | cons e history ih =>
    cases e with
    | called m result =>
      have hanswers : Dispatch.answers n ((Event.called m result :: history).filterMap said) =
          if m = n then result :: Dispatch.answers n (history.filterMap said)
          else Dispatch.answers n (history.filterMap said) := rfl
      rw [hanswers, ← ih]
      by_cases h : m = n
      · rw [if_pos h]
        exact List.filterMap_cons_some (if_pos h)
      · rw [if_neg h]
        exact List.filterMap_cons_none (if_neg h)
    | _ => exact ih

/-! ## one request -/

/-- the request's future has its one result, and so has its callback, if it came with one -/
def Answered (s : Scheduler) (n : RequestId) (a : Accepted) : Prop :=
  ∃ result, deliveries a.future s.history = [result] ∧
    callbackCalls n s.history = if a.callback then [result] else []

/-- nothing has been said on the future, and at most the callback has been called, once -/
def Awaited (s : Scheduler) (n : RequestId) (a : Accepted) : Prop :=
  deliveries a.future s.history = [] ∧
    (callbackCalls n s.history = [] ∨ ∃ result, a.callback = true ∧
      callbackCalls n s.history = [result])

theorem answered_or_awaited (hd : Dispatched cfg s) {n : RequestId} {a : Accepted}
    (ha : s.requests n = some a) : Answered s n a ∨ Awaited s n a := by
  obtain ⟨hl, hr⟩ := hd
  have hrequest : s.view.requests n = some (promise a.future, a.callback) := by
    show (s.requests n).map _ = _
    rw [ha]
    rfl
  unfold Answered Awaited
  rw [deliveries_eq, callbackCalls_eq]
  -- a callback that was not given is not called
  have hsilent : a.callback = false → Dispatch.answers n s.view.log = [] := by
    intro hc
    rw [hc] at hrequest
    exact hr.silent n _ hrequest
  cases hf : a.future with
  | task t =>
    rw [hf] at hrequest
    obtain ⟨-, ht, hmem⟩ := hr.shared n t a.callback hrequest
    cases hc : (s.view.tickets t).completed with
    | false =>
      obtain ⟨hv, hans⟩ := hr.unsettled t ht hc
      refine .inr ⟨hv, .inl ?_⟩
      cases hcb : a.callback with
      | true => exact hans n (hmem hcb)
      | false => exact hsilent hcb
    | true =>
      by_cases hw : ∃ w, (s.view.workers w).task = some t
      · obtain ⟨w, hw⟩ := hw
        cases hst : s.view.workers w with
        | idle => rw [hst] at hw; cases hw
        | exited => rw [hst] at hw; cases hw
        | holds t' =>
          rw [hst] at hw
          obtain rfl := Option.some.inj hw
          exact absurd (hc.symm.trans (hl.holds w t' hst).2.2) (by simp)
        | delivers t' result rest =>
          rw [hst] at hw
          obtain rfl := Option.some.inj hw
          obtain ⟨-, -, hv, hans⟩ := hr.delivering w t' result rest hst
          refine .inr ⟨hv, ?_⟩
          cases hcb : a.callback with
          | true =>
            have h := hans n (hmem hcb)
            by_cases hn : n ∈ rest
            · exact .inl (h.trans (if_pos hn))
            · exact .inr ⟨result, rfl, h.trans (if_neg hn)⟩
          | false => exact .inl (hsilent hcb)
      · have hfree : ∀ w, (s.view.workers w).task ≠ some t := fun w h => hw ⟨w, h⟩
        obtain ⟨result, hv, hans⟩ := hr.closed t ht hc hfree
        refine .inl ⟨result, hv, ?_⟩
        cases hcb : a.callback with
        | true => exact hans n (hmem hcb)
        | false => exact hsilent hcb
  | own m =>
    rw [hf] at hrequest
    obtain ⟨rfl, -⟩ := hr.own n m a.callback hrequest
    cases hc : s.view.calls m with
    | none =>
      obtain ⟨result, hv, hans⟩ := hr.ownClosed m a.callback hrequest hc
      refine .inl ⟨result, hv, ?_⟩
      cases hcb : a.callback with
      | true => exact hans hcb
      | false => exact hsilent hcb
    | some answer =>
      cases answer with
      | due =>
        obtain ⟨hv, hans⟩ := hr.due m hc
        exact .inr ⟨hv, .inl (hans m List.mem_cons_self)⟩
      | given result =>
        obtain ⟨hv, hans⟩ := hr.given m result hc
        refine .inr ⟨hv, ?_⟩
        cases hcb : a.callback with
        | true =>
          rw [hcb] at hrequest
          exact .inr ⟨result, rfl, hans hrequest⟩
        | false => exact .inl (hsilent hcb)

/-! ## no thread is stuck -/

/-- what goes on by itself, without a caller of a public operation -/
inductive Thread where
  | worker (w : WorkerId)
  | caller (n : RequestId)
  | expiry
  deriving DecidableEq

def Action.thread : Action → Option Thread
  | .work w _ => some (.worker w)
  | .readyResult n => some (.caller n)
  | .expireNext => some .expiry
  | _ => none

/-- no thread can make a step -/
def Stuck (cfg : SchedulerConfig) (s : Scheduler) : Prop :=
  ∀ a, Action.thread a ≠ none → step cfg a s = none

theorem not_allowed (ht : s.terminated = false) {a : Action} (h : step cfg a s = none) :
    s.allows cfg a = false := by
  unfold step at h
  split at h
  · cases h
  · next hn => simpa [ht] using hn

/-- a scheduler none of whose threads can make a step owes nothing -/
theorem rest_of_stuck (hs : Sound cfg s) (h : Stuck cfg s) : s.queue = [] ∧
    (∀ w, (stage (s.workers w)).task = none) ∧ ∀ n, s.calls n = none := by
  have hnot : ∀ a, Action.thread a ≠ none → s.allows cfg a = false :=
    fun a ha => not_allowed hs.alive (h a ha)
  have hwork : ∀ w < cfg.workerCount, ∀ outcome, s.canWork w outcome = false := by
    intro w hw outcome
    have hno : (w < cfg.workerCount ∧ s.canWork w outcome = true : Bool) = false :=
      hnot (.work w outcome) (by simp [Action.thread])
    simpa [hw] using hno
  -- the lock is free: whoever had it could go on
  have hlock : s.lock = none := by
    cases hl : s.lock with
    | none => rfl
    | some holder =>
      cases holder with
      | expiring layerId remaining wasted =>
        have hno := hnot .expireNext (by simp [Action.thread])
        dsimp only [allows] at hno
        rw [hl] at hno
        cases hno
      | worker w =>
        have htrims : trims (s.workers w) = true := (hs.tracked.locked w).mp hl
        have hn : w < cfg.workerCount := by
          by_contra hn
          have hidle : stage (s.workers w) = .idle := hs.dispatched.1.crew w (Nat.le_of_not_lt hn)
          cases hpc : s.workers w with
          | trimming t r n candidates => rw [hpc] at hidle; cases hidle
          | _ => rw [hpc] at htrims; cases htrims
        have hno := hwork w hn (.error .outOfFuel)
        unfold canWork at hno
        cases hpc : s.workers w with
        | trimming t r n candidates => rw [hpc] at hno; cases hno
        | _ => rw [hpc] at htrims; cases htrims
  have hworkers : ∀ w < cfg.workerCount, s.queue = [] ∧ (stage (s.workers w)).task = none := by
    intro w hn
    have hno := hwork w hn (.error .outOfFuel)
    unfold canWork at hno
    cases hpc : s.workers w with
    | waiting =>
      rw [hpc] at hno
      simp only [hlock, true_and, decide_eq_false_iff_not, not_or, not_not] at hno
      exact ⟨hno.2, rfl⟩
    | exited =>
      have hdrained := (hs.dispatched.1.drained w (by
        show stage (s.workers w) = _
        rw [hpc]
        rfl)).2
      exact ⟨List.map_eq_nil_iff.mp hdrained, rfl⟩
    | _ =>
      rw [hpc] at hno
      simp [hlock, TransferRequest.admits] at hno
  refine ⟨(hworkers 0 (Nat.pos_of_ne_zero cfg.hasWorker)).1, fun w => ?_, fun n => ?_⟩
  · by_cases hn : w < cfg.workerCount
    · exact (hworkers w hn).2
    · have hidle : stage (s.workers w) = .idle := hs.dispatched.1.crew w (Nat.le_of_not_lt hn)
      rw [hidle]
      rfl
  · have hno : s.canAnswer n = false := hnot (.readyResult n) (by simp [Action.thread])
    unfold canAnswer at hno
    cases hc : s.calls n with
    | none => rfl
    | some call => rw [hc] at hno; cases call <;> simp [hlock] at hno

/-- no pending task, and every request whose call is over has its answer -/
theorem settled_of_rest (hd : Dispatched cfg s) (hq : s.queue = [])
    (hw : ∀ w, (stage (s.workers w)).task = none) :
    (∀ k, s.pendingByExpert k = none) ∧
      ∀ n a, s.requests n = some a → s.calls n = none → Answered s n a := by
  have hqueue : s.view.queue = [] := List.map_eq_nil_iff.mpr hq
  have hsettled : ∀ t < s.nextTask, (s.tasks t).completed = true ∧ ∃ r, Dispatch.Settled s.view.log
      (.shared t) (s.tasks t).callbacks r :=
    fun t ht => Dispatch.settled_of_rest hd.1 hd.2 hqueue hw ht
  refine ⟨fun k => ?_, fun n a ha hc => ?_⟩
  · cases hp : s.pendingByExpert k with
    | none => rfl
    | some t =>
      obtain ⟨ht, -, hc⟩ := hd.1.pendingKey k t hp
      exact absurd ((hsettled t ht).1.symm.trans hc) (by simp)
  · rcases answered_or_awaited hd ha with h | ⟨hv, -⟩
    · exact h
    · rw [deliveries_eq] at hv
      have hrequest : s.view.requests n = some (promise a.future, a.callback) := by
        show (s.requests n).map _ = _
        rw [ha]
        rfl
      cases hf : a.future with
      | task t =>
        rw [hf] at hrequest hv
        obtain ⟨-, ht, -⟩ := hd.2.shared n t a.callback hrequest
        obtain ⟨-, r, hr, -⟩ := hsettled t ht
        exact absurd (hv.symm.trans hr) (by simp)
      | own m =>
        rw [hf] at hrequest hv
        obtain ⟨rfl, -⟩ := hd.2.own n m a.callback hrequest
        have hcall : s.view.calls m = none := by
          show (s.calls m).map _ = none
          rw [hc]
          rfl
        obtain ⟨r, hr, -⟩ := hd.2.ownClosed m a.callback hrequest hcall
        exact absurd (hv.symm.trans hr) (by simp)

/-! ## every thread comes to its end -/

/-- the stages before a worker, and the rounds of its loop -/
def left : WorkerPc → Nat × Nat
  | .popped _ => (10, 0)
  | .loading _ => (9, 0)
  | .transferred _ _ => (8, 0)
  | .ready _ _ => (7, 0)
  | .trimming _ _ _ candidates => (6, candidates.length)
  | .recorded _ _ => (5, 0)
  | .failing _ _ => (4, 0)
  | .failed _ _ => (3, 0)
  | .completing _ _ => (2, 0)
  | .notifying _ _ callbacks => (1, callbacks.length)
  | .waiting => (0, 0)
  | .exited => (0, 0)

/-- the stages before a caller -/
def callLeft : Option ReadyCall → Nat × Nat
  | none => (0, 0)
  | some (.answered _) => (1, 0)
  | some (.answering _) => (2, 0)
  | some (.looked _) => (3, 0)
  | some .looking => (4, 0)

/-- the rounds before the expiry -/
def lockLeft : Option Holder → Nat × Nat
  | some (.expiring _ remaining _) => (1, remaining.length)
  | _ => (0, 0)

/-- what a thread still has to do; nothing, at rest -/
def owes (c : Core) : Thread → Nat × Nat
  | .worker w => left (c.workers w)
  | .caller n => callLeft (c.calls n)
  | .expiry => lockLeft c.lock

/-- less of the present stage, or a later stage -/
def Less : Nat × Nat → Nat × Nat → Prop := Prod.Lex (· < ·) (· < ·)

theorem Less.stage {a b m n : Nat} (h : a < b) : Less (a, m) (b, n) := Prod.Lex.left _ _ h

theorem Less.round {a m n : Nat} (h : m < n) : Less (a, m) (a, n) := Prod.Lex.right _ h

theorem wellFounded_less : WellFounded Less := (Prod.lex Nat.lt_wfRel Nat.lt_wfRel).wf

theorem atRest_of_not_continues (hd : Dispatched cfg s) {a : Action} {i : Thread}
    (ha : a.continues s = false) (hi : a.thread = some i) : owes s.core i = (0, 0) := by
  cases a with
  | work w outcome =>
    obtain rfl := Option.some.inj hi
    have hw : s.workers w = .waiting := by simpa [Action.continues] using ha
    show left (s.workers w) = _
    rw [hw]
    rfl
  | readyResult n =>
    obtain rfl := Option.some.inj hi
    have hn : s.requests n = none := by simpa [Action.continues] using ha
    have hc : s.calls n = none := by
      cases hc : s.calls n with
      | none => rfl
      | some call =>
        have hview : s.view.calls n = some (answerOf call) := by
          show (s.calls n).map answerOf = _
          rw [hc]
          rfl
        obtain ⟨callback, hr⟩ := hd.2.call n _ hview
        replace hr : (s.requests n).map _ = some _ := hr
        rw [hn] at hr
        cases hr
    show callLeft (s.calls n) = _
    rw [hc]
    rfl
  | expireNext => cases ha
  | _ => cases hi

theorem Change.nearer {a : Action} {c : Core} {i : Thread} (hd : Dispatched cfg s)
    (h : Change cfg s a c) (hi : a.thread = some i) (hb : owes s.core i ≠ (0, 0)) :
    Less (owes c i) (owes s.core i) := by
  have hrest : a.continues s = false → Less (owes c i) (owes s.core i) :=
    fun ha => absurd (atRest_of_not_continues hd ha hi) hb
  have hworker : ∀ {w : WorkerId} {pc pc' : WorkerPc}, s.workers w = pc' →
      Less (left pc) (left pc') →
      Less (left (Function.update s.workers w pc w)) (left (s.workers w)) := by
    intro w pc pc' hw h
    rw [Function.update_self, hw]
    exact h
  have hcaller : ∀ {n : RequestId} {call call' : Option ReadyCall}, s.calls n = call' →
      Less (callLeft call) (callLeft call') →
      Less (callLeft (Function.update s.calls n call n)) (callLeft (s.calls n)) := by
    intro n call call' hc h
    rw [Function.update_self, hc]
    exact h
  cases h with
  | same ha => exact hrest ha
  | answersAtOnce ha he hi' => exact hrest ha
  | join ha hp hd' => exact hrest ha
  | enqueue ha he hp hi' hc => exact hrest ha
  | register hn => cases hi
  | acquire he hs => cases hi
  | release he hs => cases hi
  | reconcile he hr => cases hi
  | acknowledge he hr => cases hi
  | acknowledgeRefused => cases hi
  | expireBegins hl => cases hi
  | returned h => cases hi
  | @expireKeeps layerId k rest wasted hl =>
    obtain rfl := Option.some.inj hi
    show Less _ (lockLeft s.lock)
    rw [hl]
    exact .round (Nat.lt_succ_self _)
  | expireEnds hl =>
    obtain rfl := Option.some.inj hi
    show Less _ (lockLeft s.lock)
    rw [hl]
    exact .stage (by omega)
  | expire hl hk he hr =>
    obtain rfl := Option.some.inj hi
    show Less _ (lockLeft s.lock)
    rw [hl]
    exact .round (Nat.lt_succ_self _)
  | expireRefused hl hk hr =>
    obtain rfl := Option.some.inj hi
    show Less _ (lockLeft s.lock)
    rw [hl]
    exact .stage (by omega)
  | looks ha hc =>
    obtain rfl := Option.some.inj hi
    exact hcaller hc (.stage (by omega))
  | snapshots ha hc he =>
    obtain rfl := Option.some.inj hi
    exact hcaller hc (.stage (by omega))
  | answers ha hc =>
    obtain rfl := Option.some.inj hi
    exact hcaller hc (.stage (by omega))
  | answered hc =>
    obtain rfl := Option.some.inj hi
    exact hcaller hc (.stage (by omega))
  | @claim w outcome t hw hp hf =>
    obtain rfl := Option.some.inj hi
    exact absurd (congrArg left hw) hb
  | exits hw =>
    obtain rfl := Option.some.inj hi
    exact absurd (congrArg left hw) hb
  | @fails w outcome t result hw hr =>
    obtain rfl := Option.some.inj hi
    rcases hw with hw | hw
    · exact hworker hw (.stage (by omega))
    · exact hworker hw (.stage (by omega))
  | record hw hl hpc =>
    obtain rfl := Option.some.inj hi
    rcases hpc with ⟨rfl, -⟩ | ⟨candidates, rfl, -⟩
    · exact hworker hw (.stage (by omega))
    · exact hworker hw (.stage (by omega))
  | keeps hw =>
    obtain rfl := Option.some.inj hi
    exact hworker hw (.round (Nat.lt_succ_self _))
  | dropsOwn hw hf hx =>
    obtain rfl := Option.some.inj hi
    exact hworker hw (.round (Nat.lt_succ_self _))
  | drops hw hf hx hc he hr =>
    obtain rfl := Option.some.inj hi
    exact hworker hw (.round (Nat.lt_succ_self _))
  | calls hw =>
    obtain rfl := Option.some.inj hi
    exact hworker hw (.round (Nat.lt_succ_self _))
  | launch hw he =>
    obtain rfl := Option.some.inj hi
    exact hworker hw (.stage (by omega))
  | transferred hw ha hs =>
    obtain rfl := Option.some.inj hi
    exact hworker hw (.stage (by omega))
  | finish hw he =>
    obtain rfl := Option.some.inj hi
    exact hworker hw (.stage (by omega))
  | dropRefused hw hf hx hc hr =>
    obtain rfl := Option.some.inj hi
    exact hworker hw (.stage (by omega))
  | trimmed hw =>
    obtain rfl := Option.some.inj hi
    exact hworker hw (.stage (by omega))
  | succeeds hw he =>
    obtain rfl := Option.some.inj hi
    exact hworker hw (.stage (by omega))
  | marksFailed hw he =>
    obtain rfl := Option.some.inj hi
    exact hworker hw (.stage (by omega))
  | notesFailure hw =>
    obtain rfl := Option.some.inj hi
    exact hworker hw (.stage (by omega))
  | completes hw =>
    obtain rfl := Option.some.inj hi
    exact hworker hw (.stage (by omega))
  | resolves hw =>
    obtain rfl := Option.some.inj hi
    exact hworker hw (.stage (by omega))

theorem Change.calls_eq {a : Action} {c : Core} (h : Change cfg s a c) : c.calls = s.calls ∨
    (∃ n call, a = .readyResult n ∧ c.calls = Function.update s.calls n call) ∨
    ∃ call, c.calls = Function.update s.calls s.nextRequest call := by
  cases h
  case answersAtOnce => exact .inr (.inr ⟨_, rfl⟩)
  all_goals first
    | exact .inl rfl
    | exact .inr (.inl ⟨_, _, rfl, rfl⟩)

theorem Change.lock_eq {a : Action} {c : Core} (h : Change cfg s a c) : c.lock = s.lock ∨
    a = .expireNext ∨ s.lock = none ∨ ∃ w, trims (s.workers w) = true := by
  cases h
  case expireBegins hl => exact .inr (.inr (.inl hl))
  case record hw hl hpc => exact .inr (.inr (.inl hl))
  case dropRefused hw hf hx hc hr => exact .inr (.inr (.inr ⟨_, congrArg trims hw⟩))
  case trimmed hw => exact .inr (.inr (.inr ⟨_, congrArg trims hw⟩))
  all_goals first
    | exact .inl rfl
    | exact .inr (.inl rfl)

/-- a thread that is at work is where it was after the steps of everyone else -/
theorem Change.elsewhere {a : Action} {c : Core} {i : Thread} (hd : Dispatched cfg s)
    (hT : Tracked s.core) (h : Change cfg s a c) (hi : a.thread ≠ some i)
    (hb : owes s.core i ≠ (0, 0)) : owes c i = owes s.core i := by
  cases i with
  | worker w =>
    show left (c.workers w) = left (s.workers w)
    rcases h.workers_eq with e | ⟨w', outcome, pc, rfl, -, e⟩
    · rw [e]
    · have hne : w ≠ w' := by
        rintro rfl
        exact hi rfl
      rw [e, Function.update_of_ne hne]
  | caller n =>
    show callLeft (c.calls n) = callLeft (s.calls n)
    rcases h.calls_eq with e | ⟨n', call, rfl, e⟩ | ⟨call, e⟩
    · rw [e]
    · have hne : n ≠ n' := by
        rintro rfl
        exact hi rfl
      rw [e, Function.update_of_ne hne]
    · have hne : n ≠ s.nextRequest := by
        rintro rfl
        cases hc : s.calls s.nextRequest with
        | none => exact hb (congrArg callLeft hc)
        | some call =>
          have hview : s.view.calls s.nextRequest = some (answerOf call) := by
            show (s.calls s.nextRequest).map answerOf = _
            rw [hc]
            rfl
          obtain ⟨callback, hr⟩ := hd.2.call _ _ hview
          exact absurd (hd.2.own _ _ _ hr).2 (Nat.lt_irrefl _)
      rw [e, Function.update_of_ne hne]
  | expiry =>
    show lockLeft c.lock = lockLeft s.lock
    rcases h.lock_eq with e | rfl | e | ⟨w, hw⟩
    · rw [e]
    · exact absurd rfl hi
    · exact absurd (congrArg lockLeft e) hb
    · exact absurd (congrArg lockLeft ((hT.locked w).mpr hw)) hb

/-! ## shutdown -/

/-- a `shutdown` that joined the workers has returned only when all have left their loops -/
def Closed (cfg : SchedulerConfig) (c : Core) : Prop :=
  .shutdownReturned true ∈ c.history → ∀ w < cfg.workerCount, c.workers w = .exited

theorem Change.returned_mem {a : Action} {c : Core} (h : Change cfg s a c)
    (hm : Event.shutdownReturned true ∈ c.history) :
    .shutdownReturned true ∈ s.core.history ∨ ∀ w < cfg.workerCount, s.workers w = .exited := by
  cases h
  case returned hw => exact .inr hw
  case answers n a result ha hc =>
    replace hm : Event.shutdownReturned true ∈
      (if a.callback = true then .called n result :: s.core.history else s.core.history) := hm
    split at hm
    · exact .inl (by simpa using hm)
    · exact .inl hm
  all_goals first
    | exact .inl hm
    | exact .inl (by simpa using hm)

theorem Change.closed {a : Action} {c : Core} (h : Change cfg s a c) (hc : Closed cfg s.core) :
    Closed cfg c := by
  intro hm w hw
  have hall : ∀ w < cfg.workerCount, s.workers w = .exited := by
    rcases h.returned_mem hm with hm | hall
    · exact hc hm
    · exact hall
  rcases h.next_of w with e | hn
  · rw [e]
    exact hall w hw
  · rw [hall w hw] at hn
    cases hn

theorem run_closed {as : List Action} (h : run cfg as = some s) :
    Sound cfg s ∧ Closed cfg s.core := by
  have hstep : ∀ s a s', step cfg a s = some s' → Sound cfg s ∧ Closed cfg s.core →
      Sound cfg s' ∧ Closed cfg s'.core := fun s a s' hs h =>
    ⟨step_sound h.1 hs, (step_change h.1.dispatched h.1.tracked hs).1.closed h.2⟩
  have hnew : Closed cfg ({} : Scheduler).core := fun hm => by cases hm
  exact Runs.run_invariant hstep ⟨new_sound, hnew⟩ h

/-! ## the guarantees -/

/-- the task was accepted and is not completed -/
def unfinished (s : Scheduler) (t : TaskId) : Prop :=
  t < s.nextTask ∧ (s.tasks t).completed = false

/-- the entries in the queue that stand for the task as it is now -/
def entriesOf (s : Scheduler) (t : TaskId) : List QueueEntry :=
  s.queue.filter fun e => e.task = t ∧ e.generation = (s.tasks t).generation

structure Completes (cfg : SchedulerConfig) (s : Scheduler) : Prop where
  alive : s.terminated = false
  /-- one unfinished task per expert: the pending one -/
  onePending : ∀ t t', s.unfinished t → s.unfinished t' → (s.tasks t).key = (s.tasks t').key → t = t'
  pending : ∀ k t, s.pendingByExpert k = some t ↔ s.unfinished t ∧ (s.tasks t).key = k
  oneEntry : ∀ t < s.nextTask, (s.tasks t).started = false → ∃ e, s.entriesOf t = [e] ∧
    e.priority = (s.tasks t).request.priority ∧ e.priorityScore = (s.tasks t).request.priorityScore
  startedOnce : ∀ t, startCount t s.history ≤ 1
  /-- the future is given a result once, and the callback is called once, with that result -/
  answered : ∀ n a, s.requests n = some a → Answered s n a ∨ Awaited s n a
  /-- while a thread is at work, or work is left for one, some thread can go on -/
  notStuck : Stuck cfg s → ∀ n a, s.requests n = some a → Answered s n a
  /-- and its own steps bring it nearer to its end, whatever the others do -/
  nearer : ∀ a s' i, step cfg a s = some s' → owes s.core i ≠ (0, 0) →
    if a.thread = some i then Less (owes s'.core i) (owes s.core i)
    else owes s'.core i = owes s.core i
  /-- which cannot go on for ever -/
  ends : WellFounded Less
  /-- after a `shutdown` that joined the workers -/
  closed : .shutdownReturned true ∈ s.history → (∀ k, s.pendingByExpert k = none) ∧
    ∀ n a, s.requests n = some a → s.calls n = none → Answered s n a

theorem oneEntry_of_linked (hd : Dispatched cfg s) {t : TaskId} (ht : t < s.nextTask)
    (hs : (s.tasks t).started = false) : ∃ e, s.entriesOf t = [e] ∧
      e.priority = (s.tasks t).request.priority ∧
      e.priorityScore = (s.tasks t).request.priorityScore := by
  have hone := hd.1.queued t ht hs
  have hmap : s.view.queue.filter (Dispatch.Pool.current t (s.tasks t).generation) =
      (s.entriesOf t).map entry := List.filter_map ..
  replace hone := hmap.symm.trans hone
  obtain ⟨e, he, hentry⟩ := List.map_eq_singleton_iff.mp hone
  have hrank : (e.priority, e.priorityScore) =
      ((s.tasks t).request.priority, (s.tasks t).request.priorityScore) :=
    congrArg Dispatch.Entry.rank hentry
  exact ⟨e, he, (Prod.mk.inj hrank).1, (Prod.mk.inj hrank).2⟩

theorem run_completes {as : List Action} (h : run cfg as = some s) : Completes cfg s := by
  obtain ⟨hs, hclosed⟩ := run_closed h
  have hd := hs.dispatched
  constructor
  case alive => exact hs.alive
  case onePending =>
    intro t t' ht ht' hk
    exact hd.1.unique ht.1 ht'.1 ht.2 ht'.2 hk
  case pending =>
    intro k t
    constructor
    · intro hp
      obtain ⟨ht, hk, hc⟩ := hd.1.pendingKey k t hp
      exact ⟨⟨ht, hc⟩, hk⟩
    · rintro ⟨ht, rfl⟩
      exact hd.1.owned t ht.1 ht.2
  case oneEntry => exact fun t ht hst => oneEntry_of_linked hd ht hst
  case startedOnce =>
    intro t
    have hbegun := hd.2.begun t
    rw [startCount_eq]
    show Dispatch.starts t s.view.log ≤ 1
    rw [hbegun]
    split <;> omega
  case answered => exact fun n a ha => answered_or_awaited hd ha
  case notStuck =>
    intro hstuck n a ha
    obtain ⟨hq, hw, hcalls⟩ := rest_of_stuck hs hstuck
    exact (settled_of_rest hd hq hw).2 n a ha (hcalls n)
  case nearer =>
    intro a s' i hstep hb
    have hc := (step_change hd hs.tracked hstep).1
    split
    · next hi => exact hc.nearer hd hi hb
    · next hi => exact hc.elsewhere hd hs.tracked hi hb
  case ends => exact wellFounded_less
  case closed =>
    intro hm
    have hexited := hclosed (List.mem_filter.mpr ⟨hm, rfl⟩)
    have hworkers : ∀ w, (stage (s.workers w)).task = none := by
      intro w
      by_cases hn : w < cfg.workerCount
      · have hw : s.workers w = .exited := hexited w hn
        rw [hw]
        rfl
      · have hidle : stage (s.workers w) = .idle := hd.1.crew w (Nat.le_of_not_lt hn)
        rw [hidle]
        rfl
    have hfirst : s.workers 0 = .exited := hexited 0 (Nat.pos_of_ne_zero cfg.hasWorker)
    have hqueue := (hd.1.drained 0 (congrArg stage hfirst)).2
    exact settled_of_rest hd (List.map_eq_nil_iff.mp hqueue) hworkers

def singleWorker : SchedulerConfig where
  workerCount := 1
  prefetchDestination := .Ram
  hasWorker := Nat.one_ne_zero
  validPrefetch := SchedulerConfig.validPrefetch_ram

def intoRam : ScheduleRequest := { layerId := 0, expertId := 1, destination := .Ram }

/-- expert 1 of layer 0, read into RAM -/
def intoRamTransfer : TransferResult where
  status := .Completed
  record := ⟨0, 1, 0, 2⟩
  buffer := some ⟨7, [1, 2], true⟩
  destination := .Ram

/-- two requests that share a task, and a shutdown that waits for it -/
def sharedThenShutdown : List Action :=
  .registerExpert (0, 1) .Nvme :: .schedule intoRam true :: .schedule intoRam true ::
    .work 0 (.error .outOfFuel) :: .work 0 (.error .outOfFuel) :: .work 0 (.ok intoRamTransfer) ::
    .shutdown :: List.replicate 8 (.work 0 (.error .outOfFuel)) ++ [.join]

theorem run_completes_shared :
    Completes singleWorker ((run singleWorker sharedThenShutdown).get (by decide)) ∧
    Event.shutdownReturned true ∈ ((run singleWorker sharedThenShutdown).get (by decide)).history :=
  ⟨run_completes (Option.some_get _).symm, by decide⟩

/-- a second `shutdown` returns at once, while the first still waits for the workers -/
theorem not_settled_after_second_shutdown :
    (run singleWorker [.registerExpert (0, 1) .Nvme, .schedule intoRam true,
        .work 0 (.error .outOfFuel), .shutdown, .shutdown]).map (fun s =>
      (decide (.shutdownReturned false ∈ s.history), s.pendingByExpert (0, 1),
        deliveries (.task 0) s.history)) = some (true, some 0, []) := by
  decide

end HyperMoE.Scheduler
