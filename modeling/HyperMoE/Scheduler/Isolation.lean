import HyperMoE.Scheduler.Completion

/-!
# One expert's failure is not another's

While the speculative bound drops no other expert that is in use or at work, a task whose transfer
completed ends in success, and an expert leaves `InUse` only by its release.

* `Calm`           no round of the trimming loop drops another expert that is active;
* `Isolated`       a transferred task is never marked failed, and all it says is success;
* `KeepsUse`       a step leaves an expert in use unless it is the release of that expert;
* `run_isolated`   both, for every run whose steps are all calm.
-/

namespace HyperMoE.Scheduler

open Lib Lib.Fallible

variable {cfg : SchedulerConfig} {s s' : Scheduler} {c : Core}

/-! ## the condition and the property -/

/-- the round does not drop another expert whose record `reconcile` refuses -/
def calmRound (cfg : SchedulerConfig) (s : Scheduler) : WorkerPc → Bool
  | .trimming t _ cachedBytes (k :: _) =>
    match s.residentTransfers k with
    | some found => fits cfg cachedBytes found || k = (s.tasks t).key ||
        (s.states k).any fun e => reconcilable e.state
    | none => true
  | _ => true

def Calm (cfg : SchedulerConfig) (s : Scheduler) : Action → Prop
  | .work w _ => calmRound cfg s (s.workers w) = true
  | _ => True

instance (cfg : SchedulerConfig) (s : Scheduler) (a : Action) : Decidable (Calm cfg s a) := by
  apply Action.casesOn (motive := fun a => Decidable (Calm cfg s a)) a <;> intros <;>
    unfold Calm <;> infer_instance

/-- the task is on its way to a success -/
def succeeding : WorkerPc → Bool
  | .transferred _ _ => true
  | .ready _ _ => true
  | .trimming _ _ _ _ => true
  | .recorded _ _ => true
  | .completing _ result => result.success
  | .notifying _ result _ => result.success
  | _ => false

/-- the task was marked failed -/
def markedPast : WorkerPc → Bool
  | .failed _ _ => true
  | .completing _ _ => true
  | .notifying _ _ _ => true
  | _ => false

/-- the task was started, and the worker that has it is at a good place -/
structure Onward (good : WorkerPc → Bool) (c : Core) (t : TaskId) : Prop where
  known : t < c.nextTask
  begun : c.pendingByExpert (c.targets t).key = some t → ∃ w, (stage (c.workers w)).task = some t
  good : ∀ w, (stage (c.workers w)).task = some t → good (c.workers w) = true

/-- the task was never marked failed, and every result it gave was a success -/
structure Fine (c : Core) (t : TaskId) : Prop where
  unmarked : .markedFailed t ∉ c.history
  resolved : ∀ result, .resolved (.task t) result ∈ c.history → result.success = true
  called : ∀ n a result, c.requests n = some a → a.future = .task t →
    .called n result ∈ c.history → result.success = true

structure Isolated (c : Core) : Prop where
  onward : ∀ t r, .transferred t r ∈ c.history → Onward succeeding c t
  fine : ∀ t r, .transferred t r ∈ c.history → Fine c t
  marked : ∀ t, .markedFailed t ∈ c.history → Onward markedPast c t
  /-- an expert whose own task fails is not in use -/
  failing : ∀ w t result e, c.workers w = .failing t result →
    c.states (c.targets t).key = some e → ¬ parked e.state

/-! ## tasks and requests, from the pool -/

/-- a pending task is not delivered -/
theorem holds_of_pending (hd : Dispatched cfg s) {k : ExpertKey} {w : WorkerId} {t : TaskId}
    (hp : s.pendingByExpert k = some t) (hw : (stage (s.workers w)).task = some t) :
    stage (s.workers w) = .holds t := by
  have hc : (s.tasks t).completed = false := (hd.1.pendingKey k t hp).2.2
  cases hst : stage (s.workers w) with
  | idle => rw [hst] at hw; cases hw
  | exited => rw [hst] at hw; cases hw
  | holds t' =>
    rw [hst] at hw
    exact congrArg _ (Option.some.inj hw)
  | delivers t' r rest =>
    rw [hst] at hw
    obtain rfl := Option.some.inj hw
    exact absurd (hc.symm.trans (hd.1.delivers w t' r rest hst).2) (by simp)

theorem view_requests {n : RequestId} {a : Accepted} (ha : s.requests n = some a) :
    s.view.requests n = some (promise a.future, a.callback) := by
  show (s.requests n).map _ = _
  rw [ha]
  rfl

/-- who is called by a worker was accepted, and waits for the worker's task -/
theorem caller_of_notifying (hd : Dispatched cfg s) {w : WorkerId} {t : TaskId}
    {result : ScheduleResult} {n : RequestId} {rest : List RequestId}
    (hw : s.workers w = .notifying t result (n :: rest)) :
    n < s.nextRequest ∧ ∀ x, s.requests n = some x → x.future = .task t := by
  have hdelivers : s.view.workers w = .delivers t result (n :: rest) := congrArg stage hw
  have ht := (hd.1.delivers w t result _ hdelivers).1
  have hmem := (hd.2.delivering w t result _ hdelivers).2.1 n List.mem_cons_self
  refine ⟨hd.2.lt_of_callback ht hmem, fun x hx => promise_inj.mp ?_⟩
  exact congrArg Prod.fst (Option.some.inj ((view_requests hx).symm.trans (hd.2.joined t ht n hmem)))

theorem own_number (hd : Dispatched cfg s) {n m : RequestId} {x : Accepted}
    (hx : s.requests n = some x) (hf : x.future = .own m) : m = n := by
  have hr := view_requests hx
  rw [hf] at hr
  exact (hd.2.own n m _ hr).1

/-- who answers by itself waits for no task -/
theorem own_of_call (hd : Dispatched cfg s) {n : RequestId} {a : Accepted} {call : ReadyCall}
    (ha : s.requests n = some a) (hc : s.calls n = some call) : a.future = .own n := by
  have hview : s.view.calls n = some (answerOf call) := by
    show (s.calls n).map answerOf = _
    rw [hc]
    rfl
  obtain ⟨callback, hr⟩ := hd.2.call n _ hview
  have hp := (view_requests ha).symm.trans hr
  exact promise_inj.mp (congrArg Prod.fst (Option.some.inj hp))

theorem mem_deliveries {f : Future} {result : ScheduleResult} {history : List Event}
    (h : .resolved f result ∈ history) : result ∈ deliveries f history :=
  List.mem_filterMap.mpr ⟨_, h, if_pos rfl⟩

theorem mem_callbackCalls {n : RequestId} {result : ScheduleResult} {history : List Event}
    (h : .called n result ∈ history) : result ∈ callbackCalls n history :=
  List.mem_filterMap.mpr ⟨_, h, if_pos rfl⟩

theorem mem_resolved {f : Future} {result : ScheduleResult} {history : List Event}
    (h : result ∈ deliveries f history) : .resolved f result ∈ history := by
  obtain ⟨e, he, hr⟩ := List.mem_filterMap.mp h
  cases e with
  | resolved g result' =>
    replace hr : (if g = f then some result' else none) = some result := hr
    split at hr
    · next hg => exact hg ▸ Option.some.inj hr ▸ he
    · cases hr
  | _ => cases hr

theorem mem_called {n : RequestId} {result : ScheduleResult} {history : List Event}
    (h : result ∈ callbackCalls n history) : .called n result ∈ history := by
  obtain ⟨e, he, hr⟩ := List.mem_filterMap.mp h
  cases e with
  | called m result' =>
    replace hr : (if m = n then some result' else none) = some result := hr
    split at hr
    · next hg => exact hg ▸ Option.some.inj hr ▸ he
    · cases hr
  | _ => cases hr

theorem mem_of_noted {e : Event} (h : e ∈ s.core.history) : e ∈ s.history := (List.mem_filter.mp h).1

theorem noted_mem {e : Event} (he : e.noted = true) (h : e ∈ s.history) : e ∈ s.core.history :=
  List.mem_filter.mpr ⟨h, he⟩

/-- of a task that a worker holds, nothing was said -/
theorem unsaid (hd : Dispatched cfg s) {w : WorkerId} {t : TaskId}
    (hw : stage (s.workers w) = .holds t) :
    (∀ result, .resolved (.task t) result ∉ s.core.history) ∧
      ∀ n a result, s.requests n = some a → a.future = .task t →
        .called n result ∉ s.core.history := by
  obtain ⟨ht, -, hc⟩ := hd.1.holds w t hw
  obtain ⟨hv, hans⟩ := hd.2.unsettled t ht hc
  refine ⟨fun result hm => ?_, fun n a result ha hf hm => ?_⟩
  · have hmem := mem_deliveries (mem_of_noted hm)
    rw [deliveries_eq] at hmem
    replace hmem : result ∈ Dispatch.values (.shared t) s.view.log := hmem
    rw [hv] at hmem
    cases hmem
  · have hmem := mem_callbackCalls (mem_of_noted hm)
    rw [callbackCalls_eq] at hmem
    replace hmem : result ∈ Dispatch.answers n s.view.log := hmem
    have hr := view_requests ha
    rw [hf] at hr
    cases hcb : a.callback with
    | true =>
      rw [hans n ((hd.2.shared n t a.callback hr).2.2 hcb)] at hmem
      cases hmem
    | false =>
      rw [hcb] at hr
      rw [hd.2.silent n _ hr] at hmem
      cases hmem

theorem uncalled_fresh (hd : Dispatched cfg s) (result : ScheduleResult) :
    .called s.nextRequest result ∉ s.core.history := by
  intro hm
  have hmem := mem_callbackCalls (mem_of_noted hm)
  rw [callbackCalls_eq] at hmem
  replace hmem : result ∈ Dispatch.answers s.nextRequest s.view.log := hmem
  have hnone : Dispatch.answers s.nextRequest s.view.log = [] :=
    (hd.2.freshRequest _ (Nat.le_refl _)).2 _ List.mem_cons_self
  rw [hnone] at hmem
  cases hmem

/-! ## what a step keeps -/

theorem exclusive_task (hd : Dispatched cfg s) {w w' : WorkerId} {t : TaskId}
    (hw : (stage (s.workers w)).task = some t) (hw' : (stage (s.workers w')).task = some t) :
    w' = w := hd.1.exclusive w' w t hw' hw

theorem Onward.change {good : WorkerPc → Bool} {a : Action} {t : TaskId} (hd : Dispatched cfg s)
    (h : Change cfg s a c) (hgood : ∀ w, (stage (c.workers w)).task = some t →
      good (s.workers w) = true → good (c.workers w) = true)
    (o : Onward good s.core t) : Onward good c t := by
  have ht : c.targets t = (s.tasks t).target := h.targets_eq o.known
  refine ⟨Nat.lt_of_lt_of_le o.known h.nextTask_eq, fun hp => ?_, fun w hw => ?_⟩
  · rw [ht] at hp
    have hp' := h.pending_of o.known hp
    obtain ⟨w, hw⟩ := o.begun hp'
    exact ⟨w, h.keepsTask (holds_of_pending hd hp' hw)⟩
  · rcases h.task_of hw with hw' | ⟨hp, hf⟩
    · exact hgood w hw (o.good w hw')
    · obtain ⟨w', hw'⟩ := o.begun hp
      exact absurd hw' (hf w')

/-- the worker that has the task goes on to a good place -/
theorem Onward.begin {good : WorkerPc → Bool} {a : Action} {w : WorkerId} {t : TaskId}
    (hd : Dispatched cfg s) (h : Change cfg s a c) (hw : stage (s.workers w) = .holds t)
    (hgood : good (c.workers w) = true) : Onward good c t := by
  have htask : (stage (s.workers w)).task = some t := congrArg Dispatch.Stage.task hw
  refine ⟨Nat.lt_of_lt_of_le (hd.1.holds w t hw).1 h.nextTask_eq,
    fun _ => ⟨w, h.keepsTask hw⟩, fun w' hw' => ?_⟩
  rcases h.task_of hw' with hw' | ⟨-, hf⟩
  · rw [exclusive_task hd htask hw']
    exact hgood
  · exact absurd htask (hf w)

/-- a calm step of a worker does not lead from a success to a failure -/
theorem Next.succeeding {w : WorkerId} {outcome : TransferOutcome} {pc' : WorkerPc} {t : TaskId}
    (h : Next cfg s (s.workers w) pc') (hcalm : Calm cfg s (.work w outcome))
    (hs : succeeding (s.workers w) = true) (ht : (stage pc').task = some t) :
    Scheduler.succeeding pc' = true := by
  have hround : calmRound cfg s (s.workers w) = true := hcalm
  generalize s.workers w = pc at h hs hround
  cases h
  case refused t' r found n k rest x hf hx hc hr =>
    unfold calmRound at hround
    simp only [hf, hx, hc, Bool.false_or, decide_false, Option.any_eq_true,
      decide_eq_true_eq] at hround
    obtain ⟨e, he, hrec⟩ := hround
    exact absurd hrec (hr e he)
  case finish => rfl
  case record => rfl
  case bound => rfl
  case round => rfl
  case trimmed => rfl
  case succeeds => rfl
  case completes => exact hs
  case calls => exact hs
  case resolves => cases ht
  all_goals cases hs

theorem Change.succeeding {a : Action} (h : Change cfg s a c) (hcalm : Calm cfg s a)
    {w : WorkerId} {t : TaskId} (hs : succeeding (s.workers w) = true)
    (ht : (stage (c.workers w)).task = some t) : Scheduler.succeeding (c.workers w) = true := by
  rcases h.workers_eq with e | ⟨w', outcome, pc, rfl, hn, e⟩
  · rw [e]
    exact hs
  · rw [e, Function.update_apply] at ht ⊢
    split at ht
    · next hw =>
      rw [if_pos hw]
      exact hn.succeeding hcalm (hw ▸ hs) ht
    · next hw =>
      rw [if_neg hw]
      exact hs

theorem Next.markedPast {pc pc' : WorkerPc} {t : TaskId} (h : Next cfg s pc pc')
    (hs : markedPast pc = true) (ht : (stage pc').task = some t) :
    Scheduler.markedPast pc' = true := by
  cases h
  case notesFailure => rfl
  case completes => rfl
  case calls => rfl
  case resolves => cases ht
  all_goals cases hs

theorem Change.markedPast {a : Action} (h : Change cfg s a c) {w : WorkerId} {t : TaskId}
    (hs : markedPast (s.workers w) = true) (ht : (stage (c.workers w)).task = some t) :
    Scheduler.markedPast (c.workers w) = true := by
  rcases h.next_of w with e | hn
  · rw [e]
    exact hs
  · exact hn.markedPast hs ht

/-! ## every calm change -/

/-- every result that was delivered for the future has the property -/
structure Said (P : ScheduleResult → Prop) (c : Core) (f : Future) : Prop where
  resolved : ∀ result, .resolved f result ∈ c.history → P result
  called : ∀ n x result, c.requests n = some x → x.future = f → .called n result ∈ c.history →
    P result

/-- a step delivers what a worker, or a caller of `readyResult`, comes with -/
theorem Said.change {P : ScheduleResult → Prop} {f : Future} {a : Action} (hd : Dispatched cfg s)
    (h : Change cfg s a c)
    (htask : ∀ w t result rest, f = .task t → s.workers w = .notifying t result rest → P result)
    (hown : ∀ n result, f = .own n →
      s.calls n = some (.answering result) ∨ s.calls n = some (.answered result) → P result)
    (o : Said P s.core f) : Said P c f := by
  rcases h.history_eq with e | ⟨e', hsaid, e⟩
  · refine ⟨fun result hm => o.resolved result (e ▸ hm), fun n x result hx hf hm => ?_⟩
    rw [e] at hm
    rcases h.requests_of hx with hx | rfl
    · exact o.called n x result hx hf hm
    · exact absurd hm (uncalled_fresh hd result)
  · refine ⟨fun result hm => ?_, fun n x result hx hf hm => ?_⟩
    · rw [e] at hm
      rcases List.mem_cons.mp hm with he | hm
      · subst he
        cases hsaid with
        | resolves hw => exact htask _ _ _ _ rfl hw
        | answered hc => exact hown _ _ rfl (.inr hc)
      · exact o.resolved result hm
    · rw [e] at hm
      rcases List.mem_cons.mp hm with he | hm
      · subst he
        rcases h.requests_of hx with hx | rfl
        · cases hsaid with
          | calls hw => exact htask _ _ _ _ (hf.symm.trans ((caller_of_notifying hd hw).2 _ hx)) hw
          | answers ha hc => exact hown _ _ (hf.symm.trans (own_of_call hd hx hc)) (.inl hc)
        · -- the number of the new request was not called before
          cases hsaid with
          | calls hw => exact absurd (caller_of_notifying hd hw).1 (Nat.lt_irrefl _)
          | answers ha hc =>
            exact absurd (hd.2.lt_nextRequest (view_requests ha)) (Nat.lt_irrefl _)
      · rcases h.requests_of hx with hx | rfl
        · exact o.called n x result hx hf hm
        · exact absurd hm (uncalled_fresh hd result)

/-- what was said of a task on its way to a success stays fine -/
theorem Fine.change {a : Action} {t : TaskId} (hd : Dispatched cfg s) (h : Change cfg s a c)
    (o : Onward succeeding s.core t) (f : Fine s.core t) : Fine c t := by
  have hgood : ∀ {w : WorkerId}, (stage (s.workers w)).task = some t →
      succeeding (s.workers w) = true := fun hw => o.good _ hw
  have hsaid : Said (fun result => result.success = true) c (.task t) := by
    refine Said.change hd h ?_ (fun n result he => nomatch he) ⟨f.resolved, f.called⟩
    intro w t' result rest ht hw
    obtain rfl := Future.task.inj ht
    have hs := hgood (w := w) (by rw [hw]; rfl)
    rw [hw] at hs
    exact hs
  refine ⟨fun hm => ?_, hsaid.resolved, hsaid.called⟩
  rcases h.history_eq with e | ⟨e', hsays, e⟩
  · exact f.unmarked (e ▸ hm)
  · rw [e] at hm
    rcases List.mem_cons.mp hm with he | hm
    · subst he
      cases hsays with
      | @markedFailed w _ result hw hc =>
        have hs := hgood (w := w) (by rw [hw]; rfl)
        rw [hw] at hs
        exact nomatch hs
    · exact f.unmarked hm

/-- of a task whose transfer has just completed, nothing was said -/
theorem Fine.begin {a : Action} {w : WorkerId} {t : TaskId} {r : TransferResult}
    (hd : Dispatched cfg s) (i : Isolated s.core) (h : Change cfg s a c)
    (hw : s.workers w = .loading t) (hc : c.history = .transferred t r :: s.core.history) :
    Fine c t := by
  have hholds : stage (s.workers w) = .holds t := by rw [hw]; rfl
  obtain ⟨hresolved, hcalled⟩ := unsaid hd hholds
  refine ⟨fun hm => ?_, fun result hm => ?_, fun n x result hx hf hm => ?_⟩
  · rw [hc] at hm
    rcases List.mem_cons.mp hm with he | hm
    · cases he
    · have hgood := (i.marked t hm).good w (congrArg Dispatch.Stage.task hholds)
      replace hgood : markedPast (s.workers w) = true := hgood
      rw [hw] at hgood
      cases hgood
  · rw [hc] at hm
    rcases List.mem_cons.mp hm with he | hm
    · cases he
    · exact absurd hm (hresolved result)
  · rw [hc] at hm
    rcases List.mem_cons.mp hm with he | hm
    · cases he
    · rcases h.requests_of hx with hx | rfl
      · exact absurd hm (hcalled n x result hx hf)
      · exact absurd hm (uncalled_fresh hd result)

/-- two workers that hold tasks of one expert are one worker with one task -/
theorem same_holder (hd : Dispatched cfg s) (hT : Tracked s.core) {w w' : WorkerId} {t t' : TaskId}
    (hw : stage (s.workers w) = .holds t) (hw' : stage (s.workers w') = .holds t')
    (hk : (s.tasks t).key = (s.tasks t').key) : w' = w ∧ t' = t := by
  obtain ⟨hp, -⟩ := held_task hd hT hw
  obtain ⟨hp', -⟩ := held_task hd hT hw'
  rw [hk] at hp
  have ht : t' = t := Option.some.inj (hp'.symm.trans hp)
  subst ht
  exact ⟨exclusive_task hd (congrArg Dispatch.Stage.task hw) (congrArg Dispatch.Stage.task hw'), rfl⟩

/-- the record of an expert that is not parked changes by a step of the worker that has its task -/
theorem Writes.held {a : Action} {k : ExpertKey} {e e' : ExpertState} (hT : Tracked s.core)
    (h : Writes s c k a e') (he : s.states k = some e) (hp : ¬ parked e.state) :
    ∃ w t, k = (s.tasks t).key ∧ stage (s.workers w) = .holds t ∧
      ((s.workers w = .popped t ∧ c.workers w = .loading t) ∨
        (∃ r, s.workers w = .transferred t r ∧ c.workers w = .ready t r) ∨
        ∃ result, s.workers w = .failing t result ∧ c.workers w = .failed t result) := by
  have hne : ∀ {e₁ : ExpertState}, s.states k = some e₁ → ¬ parked e₁.state := by
    intro e₁ he₁
    obtain rfl := Option.some.inj (he.symm.trans he₁)
    exact hp
  cases h with
  | register hn => exact absurd (hn.symm.trans he) (by simp)
  | acquire he₁ hs => exact absurd (by rw [hs]; unfold parked; simp) (hne he₁)
  | release he₁ hs => exact absurd (by rw [hs]; unfold parked; simp) (hne he₁)
  | reconcile ha he₁ hr => exact absurd (parked_of_reconcilable hr) (hne he₁)
  | giveUp he₁ hr => exact absurd (parked_of_reconcilable hr) (hne he₁)
  | begin hk he₁ hn hc =>
    refine absurd ?_ (hne he₁)
    rcases hT.rest k _ he₁ hn with h | h | h <;> rw [h] <;> unfold parked <;> simp
  | launch hw hc hk he₁ => exact ⟨_, _, hk, by rw [hw]; rfl, .inl ⟨hw, hc⟩⟩
  | finish hw hc hk he₁ => exact ⟨_, _, hk, by rw [hw]; rfl, .inr (.inl ⟨_, hw, hc⟩)⟩
  | markFailed hw hc hk he₁ => exact ⟨_, _, hk, by rw [hw]; rfl, .inr (.inr ⟨_, hw, hc⟩)⟩

/-- an expert whose own task fails waits for its transfer, or is in it -/
theorem failing_change {a : Action} (hd : Dispatched cfg s) (hT : Tracked s.core)
    (i : Isolated s.core) (hcalm : Calm cfg s a) (h : Change cfg s a c) {w : WorkerId} {t : TaskId}
    {result : ScheduleResult} {e : ExpertState} (hc : c.workers w = .failing t result)
    (he : c.states (c.targets t).key = some e) : ¬ parked e.state := by
  have hsuccess : succeeding (s.workers w) ≠ true := by
    intro hs
    have hs' := h.succeeding hcalm hs (w := w) (t := t) (by rw [hc]; rfl)
    rw [hc] at hs'
    cases hs'
  -- where the worker was before: with this task, and before its transfer or in this place
  have hwas : s.workers w = .popped t ∨ s.workers w = .loading t ∨
      s.workers w = .failing t result := by
    rcases h.next_of w with e | hn
    · exact .inr (.inr (e ▸ hc))
    · rw [hc] at hn
      generalize s.workers w = pc at hn hsuccess
      cases hn with
      | cancelled => exact .inl rfl
      | aborted => exact .inr (.inl rfl)
      | refused => exact absurd rfl hsuccess
  have hholds : stage (s.workers w) = .holds t := by
    rcases hwas with hw | hw | hw <;> rw [hw] <;> rfl
  obtain ⟨-, e₀, he₀, hagrees⟩ := held_task hd hT hholds
  have hbusy : ¬ parked e₀.state := by
    rcases hwas with hw | hw | hw
    · rw [hw] at hagrees
      have hs : e₀.state = waiting _ := hagrees
      rw [hs]
      exact not_parked_waiting
    · rw [hw] at hagrees
      have hs : e₀.state = moving _ := hagrees
      rw [hs]
      exact not_parked_moving
    · exact i.failing w t result e₀ hw he₀
  rw [h.targets_eq (hd.1.holds w t hholds).1] at he
  replace he : c.states (s.tasks t).key = some e := he
  rcases h.states_eq (s.tasks t).key with hs | ⟨e', hwrites, hs⟩
  · rw [hs, he₀] at he
    obtain rfl := Option.some.inj he
    exact hbusy
  · -- only this worker could have changed the record, and it is in another place then
    exfalso
    obtain ⟨w', t', hk, hw', hpc⟩ := hwrites.held hT he₀ hbusy
    obtain ⟨rfl, rfl⟩ := same_holder hd hT hholds hw' hk
    rcases hpc with ⟨-, hpc⟩ | ⟨r, -, hpc⟩ | ⟨result', -, hpc⟩ <;> rw [hc] at hpc <;> cases hpc

theorem Change.isolated {a : Action} (hd : Dispatched cfg s) (hT : Tracked s.core)
    (i : Isolated s.core) (hcalm : Calm cfg s a) (h : Change cfg s a c) : Isolated c := by
  have hnew : ∀ {e : Event}, e ∈ c.history → e ∈ s.core.history ∨
      (Says cfg s c e ∧ c.history = e :: s.core.history) := by
    intro e hm
    rcases h.history_eq with he | ⟨e', hsaid, he⟩
    · exact .inl (he ▸ hm)
    · rw [he] at hm
      rcases List.mem_cons.mp hm with rfl | hm
      · exact .inr ⟨hsaid, he⟩
      · exact .inl hm
  refine ⟨fun t r hm => ?_, fun t r hm => ?_, fun t hm => ?_, fun w t result e hc he => ?_⟩
  · rcases hnew hm with hm | ⟨hsaid, -⟩
    · exact (i.onward t r hm).change hd h fun w ht hs => h.succeeding hcalm hs ht
    · cases hsaid with
      | transferred hw hc => exact .begin hd h (by rw [hw]; rfl) (by rw [hc]; rfl)
  · rcases hnew hm with hm | ⟨hsaid, hc⟩
    · exact (i.fine t r hm).change hd h (i.onward t r hm)
    · cases hsaid with
      | transferred hw => exact .begin hd i h hw hc
  · rcases hnew hm with hm | ⟨hsaid, -⟩
    · exact (i.marked t hm).change hd h fun w ht hs => h.markedPast hs ht
    · cases hsaid with
      | markedFailed hw hc => exact .begin hd h (by rw [hw]; rfl) (by rw [hc]; rfl)
  · exact failing_change hd hT i hcalm h hc he

/-- an expert in use stays in use, but for its release -/
theorem Change.inUse {a : Action} (hd : Dispatched cfg s) (hT : Tracked s.core)
    (i : Isolated s.core) (h : Change cfg s a c) {k : ExpertKey} {e : ExpertState}
    (he : s.states k = some e) (hu : e.state = .InUse) (ha : a ≠ .release k) :
    ∃ e', c.states k = some e' ∧ e'.state = .InUse := by
  rcases h.states_eq k with hs | ⟨e', hwrites, -⟩
  · exact ⟨e, hs.trans he, hu⟩
  · exfalso
    have hsame : ∀ {e₁ : ExpertState}, s.states k = some e₁ → e₁.state = .InUse := by
      intro e₁ he₁
      obtain rfl := Option.some.inj (he.symm.trans he₁)
      exact hu
    cases hwrites with
    | register hn => exact absurd (hn.symm.trans he) (by simp)
    | acquire he₁ hs => exact absurd (hs.symm.trans (hsame he₁)) (by simp)
    | release he₁ hs => exact ha rfl
    | reconcile ha he₁ hr => exact hr.1 (hsame he₁)
    | giveUp he₁ hr => exact hr.1 (hsame he₁)
    | begin hk he₁ hn hc =>
      rcases hc with hc | ⟨-, hc⟩ <;> exact absurd (hc.symm.trans (hsame he₁)) (by simp)
    | @launch _ w t e₁ hw hc hk he₁ =>
      obtain ⟨-, e₂, he₂, hagrees⟩ := held_task hd hT (w := w) (t := t) (by rw [hw]; rfl)
      rw [hw] at hagrees
      have hs : e₂.state = waiting _ := hagrees
      have hx := hs.symm.trans (hsame (hk ▸ he₂))
      unfold waiting at hx
      split at hx <;> cases hx
    | @finish _ w t r e₁ hw hc hk he₁ =>
      obtain ⟨-, e₂, he₂, hagrees⟩ := held_task hd hT (w := w) (t := t) (by rw [hw]; rfl)
      rw [hw] at hagrees
      have hs : e₂.state = moving _ := hagrees
      have hx := hs.symm.trans (hsame (hk ▸ he₂))
      unfold moving at hx
      split at hx <;> cases hx
    | @markFailed _ w t result e₁ hw hc hk he₁ =>
      have he₂ : s.states (s.tasks t).key = some e₁ := hk ▸ he₁
      refine i.failing w t result e₁ hw he₂ ?_
      rw [hsame he₁]
      unfold parked
      simp

/-! ## calm runs -/

/-- a completed transfer is a success for all consumers of the task -/
structure DeliversSuccess (cfg : SchedulerConfig) (s : Scheduler) (t : TaskId) : Prop where
  unmarked : .markedFailed t ∉ s.history
  resolved : ∀ result ∈ deliveries (.task t) s.history, result.success = true
  called : ∀ n a, s.requests n = some a → a.future = .task t →
    ∀ result ∈ callbackCalls n s.history, result.success = true
  /-- no thread is stuck before the success has been delivered -/
  answered : Stuck cfg s → ∀ n a, s.requests n = some a → a.future = .task t →
    ∃ result, result.success = true ∧ deliveries a.future s.history = [result] ∧
      callbackCalls n s.history = if a.callback then [result] else []

/-- an expert in use stays in use until its release, which succeeds -/
def KeepsUse (s : Scheduler) (a : Action) (s' : Scheduler) : Prop :=
  ∀ k e, s.states k = some e → e.state = .InUse →
    (a ≠ .release k → ∃ e', s'.states k = some e' ∧ e'.state = .InUse) ∧
    (a = .release k → s'.history = .replied .done :: s.history)

theorem deliversSuccess_of_isolated (hs : Sound cfg s) (i : Isolated s.core) {t : TaskId}
    {r : TransferResult} (hm : .transferred t r ∈ s.history) : DeliversSuccess cfg s t := by
  have f := i.fine t r (noted_mem rfl hm)
  have hresolved : ∀ result ∈ deliveries (.task t) s.history, result.success = true :=
    fun result h => f.resolved result (noted_mem rfl (mem_resolved h))
  refine ⟨fun h => f.unmarked (noted_mem rfl h), hresolved,
    fun n a ha hf result h => f.called n a result ha hf (noted_mem rfl (mem_called h)),
    fun hstuck n a ha hf => ?_⟩
  obtain ⟨hq, hw, hcalls⟩ := rest_of_stuck hs hstuck
  obtain ⟨result, hd, hc⟩ := (settled_of_rest hs.dispatched hq hw).2 n a ha (hcalls n)
  refine ⟨result, hresolved result ?_, hd, hc⟩
  rw [← hf, hd]
  exact List.mem_cons_self

theorem keepsUse_of_step {a : Action} (hs : Sound cfg s) (i : Isolated s.core)
    (h : step cfg a s = some s') : KeepsUse s a s' := by
  intro k e he hu
  refine ⟨fun ha => ?_, ?_⟩
  · exact (step_change hs.dispatched hs.tracked h).1.inUse hs.dispatched hs.tracked i he hu ha
  · rintro rfl
    obtain ⟨-, -, rfl⟩ := step_eq h
    refine answer_of (P := fun s' => s'.history = .replied .done :: s.history) ?_
    show wp (_ >>= _) _ s
    rw [wp_bind]
    exact wp_onRecord_of_allowed he (decide_eq_true hu) rfl

theorem new_isolated : Isolated ({} : Scheduler).core where
  onward t r h := by cases h
  fine t r h := by cases h
  marked t h := by cases h
  failing w t result e h := by cases h

theorem step_isolated {a : Action} (hcalm : Calm cfg s a) (hs : Sound cfg s ∧ Isolated s.core)
    (h : step cfg a s = some s') : Sound cfg s' ∧ Isolated s'.core := by
  obtain ⟨hs, i⟩ := hs
  have hc := (step_change hs.dispatched hs.tracked h).1
  exact ⟨step_sound hs h, hc.isolated hs.dispatched hs.tracked i hcalm⟩

theorem run_isolated (cfg : SchedulerConfig) (as : List Action)
    (h : Runs.Along (step cfg) (fun s a _ => Calm cfg s a) {} as) :
    (∀ s, run cfg as = some s → ∀ t r, .transferred t r ∈ s.history → DeliversSuccess cfg s t) ∧
      Runs.Along (step cfg) KeepsUse {} as := by
  have hstep : ∀ s a s', step cfg a s = some s' → Calm cfg s a →
      Sound cfg s ∧ Isolated s.core → Sound cfg s' ∧ Isolated s'.core :=
    fun _ _ _ hs hc hi => step_isolated hc hi hs
  have hnew : Sound cfg ({} : Scheduler) ∧ Isolated ({} : Scheduler).core := ⟨new_sound, new_isolated⟩
  constructor
  · intro s hr t r hm
    obtain ⟨hs, i⟩ := Runs.run_keeps hstep as _ _ h hnew hr
    exact deliversSuccess_of_isolated hs i hm
  · exact Runs.along_of_keeps hstep (fun _ _ _ hs _ hi => keepsUse_of_step hi.1 hi.2 hs) as _ h hnew

/-- speculation may hold 3 bytes -/
def smallBound : SchedulerConfig where
  workerCount := 1
  prefetchDestination := .Ram
  maximumPrefetchBytes := 3
  hasWorker := Nat.one_ne_zero

/-- an expert of two bytes of layer 0, read into RAM -/
def twoBytes (e : ExpertId) : TransferResult where
  status := .Completed
  record := ⟨0, e, 0, 2⟩
  buffer := some ⟨e, [1, 2], true⟩
  destination := .Ram

/-- worker 0 up to the record of the finished transfer -/
def loadInto (r : TransferResult) : List Action :=
  [.work 0 (.error .outOfFuel), .work 0 (.error .outOfFuel), .work 0 (.ok r),
    .work 0 (.error .outOfFuel)]

/-- two prefetches, of which the bound lets only the later one stay -/
def boundedRun : List Action :=
  .registerExpert (0, 1) .Nvme :: .registerExpert (0, 2) .Nvme ::
    .prefetch ⟨0, 2, 1, 1⟩ false :: loadInto (twoBytes 2) ++
      List.replicate 6 (.work 0 (.error .outOfFuel)) ++
    .prefetch ⟨0, 1, 1, 1⟩ true :: loadInto (twoBytes 1) ++
      List.replicate 8 (.work 0 (.error .outOfFuel))

theorem run_isolated_bounded :
    ((run smallBound boundedRun).map fun s => decide (.transferred 1 (twoBytes 1) ∈ s.history)) =
      some true ∧
    (∀ s, run smallBound boundedRun = some s → ∀ t r, .transferred t r ∈ s.history →
      DeliversSuccess smallBound s t) ∧
    Runs.Along (step smallBound) KeepsUse {} boundedRun :=
  ⟨by decide +kernel, run_isolated _ _ (by decide +kernel)⟩

/-- the same with both experts in use: the bound cannot drop the first one, so the second one, whose
transfer completed, is marked failed under its user's eyes -/
def inUseRun : List Action :=
  .registerExpert (0, 1) .Nvme :: .registerExpert (0, 2) .Nvme ::
    .prefetch ⟨0, 2, 1, 1⟩ false :: loadInto (twoBytes 2) ++
      List.replicate 6 (.work 0 (.error .outOfFuel)) ++ [.acquire (0, 2)] ++
    .prefetch ⟨0, 1, 1, 1⟩ true :: loadInto (twoBytes 1) ++ [.acquire (0, 1)] ++
      List.replicate 4 (.work 0 (.error .outOfFuel))

theorem not_isolated_with_other_in_use :
    (run smallBound inUseRun).map (fun s => (decide (.transferred 1 (twoBytes 1) ∈ s.history),
      decide (.markedFailed 1 ∈ s.history), (s.states (0, 1)).map (·.state))) =
        some (true, true, some .Failed) ∧
    (run smallBound (inUseRun ++ [.release (0, 1)])).map (fun s => s.history.head?) =
      some (some (.threw (.logicError "only an in-use expert can be released"))) := by
  decide +kernel

end HyperMoE.Scheduler
