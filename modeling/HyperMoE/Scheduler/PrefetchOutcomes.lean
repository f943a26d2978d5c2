import Mathlib.Data.Finset.Card
import HyperMoE.Scheduler.Ownership
import HyperMoE.Scheduler.Profiling
import HyperMoE.Scheduler.Retention

/-!
# What became of the prefetches

The profiler counts a prefetch as useful, as late or as wasted.  A request for a prefetch is good for
one outcome, which is first with its task, then with the mark of its expert, and last in a count.
An active request that meets a pending prefetch counts an outcome too, and takes it from nowhere if
the task has an active consumer already, if its transfer was recorded, or if the request is refused.
While no request does that, no more outcomes are counted than there were requests.

* `Recorded`         the section that records the task's finished transfer is behind it;
* `Undecided`        the outcome of the prefetch is still with its task;
* `OnceClassified`   the condition;
* `promised`         the outcomes that were counted, and those that can still be;
* `Books`            a step promises no more than it pays for;
* `run_outcomes`     every run whose steps all meet the condition.
-/

namespace HyperMoE.Scheduler

open Lib Lib.Fallible

variable {cfg : SchedulerConfig} {s s' : Scheduler} {a : Action} {c : Core}

/-! ## the condition and the property -/

/-- the worker has the finished transfer of the task in hand -/
def unrecorded (t : TaskId) : WorkerPc → Bool
  | .transferred t' _ => t' = t
  | .ready t' _ => t' = t
  | _ => false

def transferOf (t : TaskId) : Event → Bool
  | .transferred t' _ => t' = t
  | _ => false

/-- the transfer of the task completed, and no worker is before the section that records it -/
def Recorded (cfg : SchedulerConfig) (s : Scheduler) (t : TaskId) : Prop :=
  (∃ e ∈ s.history, transferOf t e = true) ∧
    ∀ w < cfg.workerCount, unrecorded t (s.workers w) = false

def Undecided (cfg : SchedulerConfig) (s : Scheduler) (t : TaskId) : Prop :=
  speculative (s.tasks t) = true ∧ ¬ Recorded cfg s t

instance (cfg : SchedulerConfig) (s : Scheduler) (t : TaskId) : Decidable (Recorded cfg s t) := by
  unfold Recorded
  infer_instance

instance (cfg : SchedulerConfig) (s : Scheduler) (t : TaskId) : Decidable (Undecided cfg s t) := by
  unfold Undecided
  infer_instance

/-- an active request that meets a pending prefetch takes the mark of the expert, or the outcome of
the task: the prefetch is ready for it, or the request joins the task -/
def Unclassified (cfg : SchedulerConfig) (s : Scheduler) (request : ScheduleRequest) : Prop :=
  request.isActive = true → s.stopping = false → ∀ e ∈ s.states request.key,
    ∀ t ∈ s.pendingByExpert request.key, (s.tasks t).prefetchRequest = true →
      request.key ∈ s.prefetchedReady ∨ (Undecided cfg s t ∧
        (isReadyAt e request.destination = true ∨
          (s.tasks t).request.destination = request.destination))

def OnceClassified (cfg : SchedulerConfig) (s : Scheduler) : Action → Prop
  | .schedule request _ => Unclassified cfg s request
  | _ => True

instance (cfg : SchedulerConfig) (s : Scheduler) (request : ScheduleRequest) :
    Decidable (Unclassified cfg s request) := by
  unfold Unclassified
  infer_instance

instance (cfg : SchedulerConfig) (s : Scheduler) (a : Action) :
    Decidable (OnceClassified cfg s a) := by
  apply Action.casesOn (motive := fun a => Decidable (OnceClassified cfg s a)) a <;> intros <;>
    unfold OnceClassified <;> infer_instance

/-- no more outcomes than requests, by either way of counting them -/
def Covered (c : PrefetchCounters) : Prop :=
  c.useful + c.wasted + c.late ≤ c.requests ∧ c.hits + c.misses ≤ c.requests

instance (c : PrefetchCounters) : Decidable (Covered c) := by
  unfold Covered
  infer_instance

/-! ## what the counts depend on -/

/-- the counters, the marks, and whether a task is a prefetch without an active consumer -/
structure Tally where
  profiler : PrefetchCounters
  prefetchedReady : List ExpertKey
  lock : Option Holder
  nextTask : TaskId
  speculative : TaskId → Bool

def tally (s : Scheduler) : Tally where
  profiler := s.profiler
  prefetchedReady := s.prefetchedReady
  lock := s.lock
  nextTask := s.nextTask
  speculative t := speculative (s.tasks t)

theorem tally_setTask (t : TaskId) (task : Task) (s : Scheduler) : (s.setTask t task).tally =
    { s.tally with speculative := Function.update s.tally.speculative t (speculative task) } :=
  congrArg (Tally.mk s.profiler s.prefetchedReady s.lock s.nextTask)
    (map_update speculative s.tasks t task)

theorem tally_setTask_same {t : TaskId} {task : Task}
    (h : speculative task = speculative (s.tasks t)) : (s.setTask t task).tally = s.tally := by
  rw [tally_setTask, h]
  exact congrArg (Tally.mk _ _ _ _) (Function.update_eq_self ..)

theorem tally_aside : Aside tally where
  states _ _ := rfl
  queue _ _ := rfl
  pending _ _ := rfl
  tasks _ _ _ h := tally_setTask_same h
  flags _ _ _ _ := rfl
  goto _ _ _ := rfl
  setCall _ _ _ := rfl
  log _ _ := rfl

/-- the action neither submits a request nor touches a mark -/
def quiet (s : Scheduler) : Action → Bool
  | .schedule _ _ | .prefetch _ _ | .expirePrefetchesBefore _ _ | .expireNext
  | .acknowledgeResidency _ _ => false
  | .work w _ => match s.workers w with
    | .ready _ _ | .trimming _ _ _ _ => false
    | _ => true
  | _ => true

namespace Aside

variable {τ : Type} {f : Scheduler → τ} (hf : Aside f)

include hf

theorem onExpert (x : States.Code Unit) : f (s.answer (onExpert x)) = f s :=
  leaves_answer hf.log ((hf.onStates x).bind fun _ => leaves_pure _)

theorem readyResult (n : RequestId) (accepted : Accepted) (call : ReadyCall) :
    Leaves f (readyResult n accepted call) := by
  cases call with
  | looking => exact leaves_update fun s => hf.setCall ..
  | looked transfer => exact (hf.onStates _).bind fun _ => leaves_update fun s => hf.setCall ..
  | answering result =>
    refine leaves_update fun s => (hf.setCall ..).trans ?_
    split
    · exact hf.log ..
    · rfl
  | answered result =>
    refine leaves_update fun s => (hf.setCall ..).trans ?_
    rw [hf.log, hf.log]

/-- the quiet steps leave it alone -/
theorem step (hend : ∀ s : Scheduler, f { s with terminated := true } = f s)
    (h : step cfg a s = some s') (hq : quiet s a = true) : f s' = f s := by
  obtain ⟨-, -, rfl⟩ := step_eq h
  cases a with
  | registerExpert k location => exact hf.onExpert _
  | schedule request callback => cases hq
  | prefetch prediction callback => cases hq
  | readyResult n =>
    dsimp only [perform]
    split
    · exact leaves_thread hend (hf.readyResult _ _ _)
    · rfl
  | cancel n =>
    show f (s.cancel n) = f s
    unfold Scheduler.cancel
    split
    · exact hf.flags s.stopping s.joining _ s
    · rfl
  | acquire k => exact hf.onExpert _
  | release k => exact hf.onExpert _
  | expirePrefetchesBefore layerId order => cases hq
  | expireNext => cases hq
  | cachedTransfer k => exact leaves_answer hf.log (leaves_read.bind fun s => leaves_pure _)
  | acknowledgeResidency k location => cases hq
  | reconcileResidency k location =>
    refine leaves_answer hf.log (leaves_read.bind fun s => ?_)
    exact (leaves_ite _ (hf.onStates _) (leaves_pure ())).bind fun _ => leaves_pure _
  | shutdown =>
    show f s.shutdown = f s
    unfold Scheduler.shutdown
    split
    · exact hf.log ..
    · exact hf.flags ..
  | join => exact (hf.log ..).trans (hf.flags s.stopping false s.cancelled s)
  | work w outcome =>
    refine leaves_thread hend (hf.work ?_ ?_)
    · intro t r hw
      unfold quiet at hq
      simp only [hw] at hq
      cases hq
    · unfold quiet at hq
      cases hw : s.workers w with
      | trimming t r cachedBytes candidates =>
        simp only [hw] at hq
        cases hq
      | _ => rfl

end Aside

/-! ## outcomes outside of the tasks -/

/-- what `expirePrefetchesBefore` has counted and the profiler does not know yet -/
def inLoop : Option Holder → Nat
  | some (.expiring _ _ wasted) => wasted
  | _ => 0

/-- the outcomes that were counted, and one for every mark -/
def Tally.charged (l : Tally) : Nat :=
  l.profiler.useful + l.profiler.wasted + l.profiler.late + inLoop l.lock + l.prefetchedReady.length

def charged (s : Scheduler) : Nat := s.tally.charged

theorem charged_eq (s : Scheduler) : s.charged = s.profiler.useful + s.profiler.wasted +
    s.profiler.late + inLoop s.lock + s.prefetchedReady.length := rfl

structure Balanced (c : PrefetchCounters) : Prop where
  hits : c.hits = c.useful
  misses : c.misses = c.late

/-- at most `n` outcomes are new, and they come from tasks that were there -/
structure Charges (n : Nat) (s s' : Scheduler) : Prop where
  charged : s'.charged ≤ s.charged + n
  requests : s'.profiler.requests = s.profiler.requests
  balanced : Balanced s.profiler → Balanced s'.profiler
  nextTask : s'.nextTask = s.nextTask
  speculative : ∀ t, speculative (s'.tasks t) = speculative (s.tasks t)

theorem Charges.refl (s : Scheduler) : Charges 0 s s := ⟨Nat.le_refl _, rfl, id, rfl, fun _ => rfl⟩

theorem Charges.tally {n : Nat} {s₁ : Scheduler} (h : Charges n s s₁) (ht : s'.tally = s₁.tally) :
    Charges n s s' := by
  have hp : s'.profiler = s₁.profiler := congrArg Tally.profiler ht
  have hc : s'.charged = s₁.charged := congrArg Tally.charged ht
  exact ⟨hc ▸ h.charged, hp ▸ h.requests, hp ▸ h.balanced,
    (congrArg Tally.nextTask ht).trans h.nextTask,
    fun t => (congrFun (congrArg Tally.speculative ht) t).trans (h.speculative t)⟩

/-- nothing but the counters, the marks and the lock changed -/
theorem Charges.of_eq {n : Nat} {profiler : PrefetchCounters} {marks : List ExpertKey}
    {lock : Option Holder}
    (ht : s'.tally = { s.tally with profiler := profiler, prefetchedReady := marks, lock := lock })
    (hr : profiler.requests = s.profiler.requests) (hb : Balanced s.profiler → Balanced profiler)
    (hc : profiler.useful + profiler.wasted + profiler.late + inLoop lock + marks.length ≤
      s.charged + n) : Charges n s s' := by
  have hs : Charges n s { s with profiler := profiler, prefetchedReady := marks, lock := lock } :=
    ⟨hc, hr, hb, rfl, fun _ => rfl⟩
  exact hs.tally ht

/-! ### the marks -/

theorem length_erase_add_one {k : ExpertKey} {marks : List ExpertKey} (h : k ∈ marks) :
    (marks.erase k).length + 1 = marks.length := by
  have hpos := List.length_pos_of_mem h
  rw [List.length_erase_of_mem h]
  omega

theorem length_insert_le (k : ExpertKey) (marks : List ExpertKey) :
    (marks.insert k).length ≤ marks.length + 1 := by
  by_cases h : k ∈ marks
  · rw [List.length_insert_of_mem h]
    exact Nat.le_succ _
  · rw [List.length_insert_of_not_mem h]

/-- what the two loops have still to go through is marked -/
structure Rounds (l : Ledger) : Prop where
  expiring : ∀ layerId remaining wasted, l.lock = some (.expiring layerId remaining wasted) →
    remaining.Subperm l.prefetchedReady
  trimming : ∀ w loop, l.trimming w = some loop → loop.candidates.Subperm l.prefetchedReady

namespace Rounds

variable {l : Ledger}

theorem erase_of_cons {k : ExpertKey} {rest marks : List ExpertKey}
    (h : (k :: rest).Subperm marks) : rest.Subperm (marks.erase k) := by
  have he := h.erase k
  rwa [List.erase_cons_head] at he

theorem tail_of_cons {k : ExpertKey} {rest marks : List ExpertKey}
    (h : (k :: rest).Subperm marks) : rest.Subperm marks :=
  (List.sublist_cons_self k rest).subperm.trans h

/-- nobody is in a loop -/
theorem free (hs : Sound cfg s) (hl : ∀ w, s.lock ≠ some (.worker w)) (hlock : l.lock = none)
    (htrim : l.trimming = s.ledger.trimming) : Rounds l where
  expiring layerId remaining wasted h := by
    rw [hlock] at h
    cases h
  trimming w loop h := by
    rw [htrim] at h
    exact absurd (lock_of_trimming hs h) (hl w)

/-- a caller of `expirePrefetchesBefore` is in its loop -/
theorem expire (hs : Sound cfg s) {layerId : LayerId} {rest : List ExpertKey} {wasted : Nat}
    (hl : ∀ w, s.lock ≠ some (.worker w)) (hlock : l.lock = some (.expiring layerId rest wasted))
    (htrim : l.trimming = s.ledger.trimming) (h : rest.Subperm l.prefetchedReady) : Rounds l where
  expiring layerId' remaining wasted' h' := by
    rw [hlock] at h'
    obtain ⟨-, rfl, -⟩ := Holder.expiring.inj (Option.some.inj h')
    exact h
  trimming w loop h' := by
    rw [htrim] at h'
    exact absurd (lock_of_trimming hs h') (hl w)

/-- worker `w` is in the loop that bounds speculative ownership, or enters it -/
theorem round (hs : Sound cfg s) {w : WorkerId} {new : Trimming}
    (hl : s.lock = some (.worker w) ∨ s.lock = none) (hlock : l.lock = some (.worker w))
    (htrim : l.trimming = Function.update s.ledger.trimming w (some new))
    (h : new.candidates.Subperm l.prefetchedReady) : Rounds l where
  expiring layerId remaining wasted h' := by
    rw [hlock] at h'
    cases h'
  trimming w' loop h' := by
    rw [htrim, Function.update_apply] at h'
    split at h'
    · obtain rfl := Option.some.inj h'
      exact h
    · next hne =>
      have hw := lock_of_trimming hs (w := w') h'
      rcases hl with hl | hl
      · exact absurd (Holder.worker.inj (Option.some.inj (hw.symm.trans hl))) hne
      · exact nomatch hl.symm.trans hw

/-- worker `w` leaves the loop -/
theorem leave (hs : Sound cfg s) {w : WorkerId} (hl : s.lock = some (.worker w)) (hlock : l.lock = none)
    (htrim : l.trimming = Function.update s.ledger.trimming w none) : Rounds l where
  expiring layerId remaining wasted h' := by
    rw [hlock] at h'
    cases h'
  trimming w' loop h' := by
    rw [htrim, Function.update_apply] at h'
    split at h'
    · cases h'
    · next hne =>
      have hw := lock_of_trimming hs (w := w') h'
      exact absurd (Holder.worker.inj (Option.some.inj (hw.symm.trans hl))) hne

end Rounds

theorem LedgerStep.rounds {l : Ledger} (hs : Sound cfg s) (h : LedgerStep cfg s a l)
    (i : Rounds s.ledger) : Rounds l := by
  cases h
  case same => exact i
  case unmarks hl ha => exact .free hs (by simp [hl]) hl rfl
  case marks hl he hp hi hq => exact .free hs (by simp [hl]) hl rfl
  case acknowledges hl => exact .free hs (by simp [hl]) hl rfl
  case expireBegins hl ho => exact .expire hs (by simp [hl]) rfl rfl ho.subperm
  case expireKeeps hl hk => exact .expire hs (by simp [hl]) rfl rfl (Rounds.tail_of_cons (i.expiring _ _ _ hl))
  case expires hl hk => exact .expire hs (by simp [hl]) rfl rfl (Rounds.erase_of_cons (i.expiring _ _ _ hl))
  case expireRefused hl hk hr => exact .free hs (by simp [hl]) rfl rfl
  case expireEnds hl => exact .free hs (by simp [hl]) rfl rfl
  case records hw hl ht => exact .free hs (by simp [hl]) hl rfl
  case bounds w outcome t r hw hl ht =>
    exact .round hs (.inr hl) rfl rfl (List.perm_insertionSort keyLe _).subperm
  case skips hw hf =>
    have hl := lock_of_trimming hs hw
    exact .round hs (.inl hl) hl rfl (Rounds.tail_of_cons (i.trimming _ _ hw))
  case keeps hw hf hx =>
    have hl := lock_of_trimming hs hw
    exact .round hs (.inl hl) hl rfl (Rounds.tail_of_cons (i.trimming _ _ hw))
  case drops hw hf hx =>
    have hl := lock_of_trimming hs hw
    exact .round hs (.inl hl) hl rfl (Rounds.erase_of_cons (i.trimming _ _ hw))
  case dropRefused hw hf hx hc hr => exact .leave hs (lock_of_trimming hs hw) rfl rfl
  case trimmed hw => exact .leave hs (lock_of_trimming hs hw) rfl rfl

/-! ### steps that submit no request -/

theorem charges_expireBegins {layerId : LayerId} {order : List ExpertKey} (hl : s.lock = none) :
    Charges 0 s { s with lock := some (.expiring layerId order 0) } := by
  refine .of_eq rfl rfl id ?_
  rw [charged_eq, hl]
  exact Nat.le_refl _

theorem charges_expireNext {layerId : LayerId} {remaining : List ExpertKey} {wasted : Nat}
    (hr : Rounds s.ledger) (hl : s.lock = some (.expiring layerId remaining wasted)) :
    Charges 0 s (s.thread (expire cfg layerId wasted remaining)) := by
  have hcharged := charged_eq s
  rw [hl] at hcharged
  replace hcharged : s.charged =
    s.profiler.useful + s.profiler.wasted + s.profiler.late + wasted + s.prefetchedReady.length := hcharged
  cases remaining with
  | nil =>
    show Charges 0 s (((s.count cfg (.wasting wasted)).log (.replied .done)).unlock)
    unfold count
    split
    · refine .of_eq rfl rfl (fun h => ⟨h.hits, h.misses⟩) ?_
      rw [hcharged]
      show s.profiler.useful + (s.profiler.wasted + wasted) + s.profiler.late + 0 +
        s.prefetchedReady.length ≤ _
      omega
    · refine .of_eq rfl rfl id ?_
      rw [hcharged]
      show s.profiler.useful + s.profiler.wasted + s.profiler.late + 0 +
        s.prefetchedReady.length ≤ _
      omega
  | cons k rest =>
    by_cases hk : k.1 < layerId
    · rcases expire_older cfg s rest wasted hk with ⟨e, h⟩ | h
      · have hmem : k ∈ s.prefetchedReady :=
          (hr.expiring layerId (k :: rest) wasted hl).subset List.mem_cons_self
        have hlen := length_erase_add_one hmem
        rw [h.after]
        refine .of_eq rfl rfl id ?_
        rw [hcharged]
        show s.profiler.useful + s.profiler.wasted + s.profiler.late + (wasted + 1) +
          (s.prefetchedReady.erase k).length ≤ _
        omega
      · obtain ⟨x, hafter⟩ := h.after
        rw [hafter]
        refine .of_eq rfl rfl id ?_
        rw [hcharged]
        show s.profiler.useful + s.profiler.wasted + s.profiler.late + 0 +
          s.prefetchedReady.length ≤ _
        omega
    · rw [expire_newer hk]
      refine .of_eq rfl rfl id ?_
      rw [hcharged]
      exact Nat.le_refl _

theorem charges_acknowledge (k : ExpertKey) (location : MemoryTier) :
    Charges 0 s (s.answer (acknowledgeResidency cfg k location)) := by
  refine answer_of (P := fun s' => Charges 0 s s') ?_
  show wp (read >>= _) _ s
  rw [wp_bind, wp_read]
  show wp (_ >>= _) _ s
  rw [wp_bind, wp_throwIf]
  split
  · exact (Charges.refl s).tally rfl
  · show wp (_ >>= _) _ s
    rw [wp_bind, wp_update]
    show wp (_ >>= _) _ (forget k s)
    rw [wp_bind, wp_update]
    have hadopted : Charges 0 s (if k ∈ (forget k s).prefetchedReady
        then ((forget k s).forgetPrefetched k).count cfg .hit else forget k s) := by
      split
      · next hk =>
        have hlen : (s.prefetchedReady.erase k).length + 1 = s.prefetchedReady.length :=
          length_erase_add_one hk
        unfold count
        split
        · refine .of_eq rfl rfl (fun h => ⟨congrArg (· + 1) h.hits, h.misses⟩) ?_
          show s.profiler.useful + 1 + s.profiler.wasted + s.profiler.late + inLoop s.lock +
            (s.prefetchedReady.erase k).length ≤ s.charged + 0
          rw [charged_eq]
          omega
        · refine .of_eq rfl rfl id ?_
          show s.profiler.useful + s.profiler.wasted + s.profiler.late + inLoop s.lock +
            (s.prefetchedReady.erase k).length ≤ s.charged + 0
          rw [charged_eq]
          omega
      · exact (Charges.refl s).tally rfl
    generalize (if k ∈ (forget k s).prefetchedReady
        then ((forget k s).forgetPrefetched k).count cfg .hit else forget k s) = s₁ at hadopted
    show wp (_ >>= _) _ s₁
    rw [wp_bind]
    apply wp_reconcile
    · exact fun e _ _ => hadopted.tally rfl
    · exact fun _ x => hadopted.tally rfl

theorem charges_record (w : WorkerId) (t : TaskId) (r : TransferResult) :
    Charges (if speculative (s.tasks t) = true then 1 else 0) s (s.record w t r) := by
  unfold Scheduler.record
  show Charges _ s (if _ then _ else _)
  by_cases ht : speculative (s.tasks t) = true
  · have hlen := length_insert_le (s.tasks t).key s.prefetchedReady
    rw [if_pos ht, if_pos (speculative_iff.mp ht)]
    refine .of_eq rfl rfl id ?_
    show s.profiler.useful + s.profiler.wasted + s.profiler.late + 0 +
      (s.prefetchedReady.insert (s.tasks t).key).length ≤ s.charged + 1
    rw [charged_eq]
    omega
  · rw [if_neg ht, if_neg (fun h => ht (speculative_iff.mpr h))]
    exact (Charges.refl s).tally rfl

theorem charges_trim {w : WorkerId} {t : TaskId} {r : TransferResult} {cachedBytes : Nat}
    {c : ExpertKey} {rest : List ExpertKey} (hr : Rounds s.ledger)
    (hw : s.workers w = .trimming t r cachedBytes (c :: rest)) :
    Charges 0 s (s.thread (guarded unlock w t (trim cfg w t r cachedBytes c rest))) := by
  have hmem : c ∈ s.prefetchedReady := by
    refine (hr.trimming w ⟨t, cachedBytes, c :: rest⟩ ?_).subset List.mem_cons_self
    show trimming (s.workers w) = _
    rw [hw]
    rfl
  have hlen := length_erase_add_one hmem
  refine thread_of (P := fun s' => Charges 0 s s') ?_
  show wp (tryCatch _ _) _ s
  rw [wp_tryCatch]
  show wp (read >>= _) _ s
  rw [wp_bind, wp_read]
  dsimp only
  cases hf : s.residentTransfers c with
  | none => exact (Charges.refl s).tally rfl
  | some found =>
    show wp (if _ then _ else _) _ s
    split
    · exact (Charges.refl s).tally rfl
    · let s₁ := forgetPrefetched c (forget c s)
      have hdropped : Charges 0 s (s₁.count cfg (.wasting 1)) := by
        unfold count
        split
        · refine .of_eq rfl rfl (fun h => ⟨h.hits, h.misses⟩) ?_
          show s.profiler.useful + (s.profiler.wasted + 1) + s.profiler.late + inLoop s.lock +
            (s.prefetchedReady.erase c).length ≤ s.charged + 0
          rw [charged_eq]
          omega
        · refine .of_eq rfl rfl id ?_
          show s.profiler.useful + s.profiler.wasted + s.profiler.late + inLoop s.lock +
            (s.prefetchedReady.erase c).length ≤ s.charged + 0
          rw [charged_eq]
          omega
      show wp (drop cfg t c >>= _) _ s
      rw [wp_bind]
      show wp (_ >>= _) _ s
      rw [wp_bind, wp_update]
      show wp (_ >>= _) _ (forget c s)
      rw [wp_bind, wp_update]
      show wp (read >>= _) _ s₁
      rw [wp_bind, wp_read]
      show wp (_ >>= _) _ s₁
      rw [wp_bind]
      by_cases hc : c = (s.tasks t).key
      · rw [if_neg (fun h => h hc)]
        exact hdropped.tally rfl
      · rw [if_pos (show c ≠ (s₁.tasks t).key from hc)]
        apply wp_reconcile
        · intro e he hre
          refine hdropped.tally ?_
          show (count cfg (.wasting 1) (s₁.setStates _)).tally = (s₁.count cfg (.wasting 1)).tally
          unfold count
          split <;> rfl
        · intro hre x
          -- the mark is gone, and nothing was counted for it
          show Charges 0 s (s₁.unlock.goto w _)
          refine .of_eq rfl rfl id ?_
          show s.profiler.useful + s.profiler.wasted + s.profiler.late + 0 +
            (s.prefetchedReady.erase c).length ≤ s.charged + 0
          rw [charged_eq]
          omega

/-- the task whose finished transfer the step records -/
def recording (s : Scheduler) : Action → Option TaskId
  | .work w _ => match s.workers w with
    | .ready t _ => some t
    | _ => none
  | _ => none

/-- only the record of a speculative transfer makes an outcome of a task's -/
theorem step_charges (hr : Rounds s.ledger) (h : step cfg a s = some s')
    (hq : a.request cfg = none) :
    Charges 0 s s' ∨ ∃ t, recording s a = some t ∧ speculative (s.tasks t) = true ∧ Charges 1 s s' := by
  by_cases hquiet : quiet s a = true
  · exact .inl ((Charges.refl s).tally (tally_aside.step (fun _ => rfl) h hquiet))
  · obtain ⟨-, hallows, rfl⟩ := step_eq h
    cases a with
    | schedule request callback => cases hq
    | prefetch prediction callback => cases hq
    | expirePrefetchesBefore layerId order =>
      obtain ⟨hl, -⟩ : s.lock = none ∧ order.isPerm s.prefetchedReady = true :=
        of_decide_eq_true hallows
      exact .inl (charges_expireBegins hl)
    | expireNext =>
      refine .inl ?_
      show Charges 0 s (match s.lock with
        | some (.expiring layerId remaining wasted) => s.thread (expire cfg layerId wasted remaining)
        | _ => s)
      split
      · next hl => exact charges_expireNext hr hl
      · exact .refl s
    | acknowledgeResidency k location => exact .inl (charges_acknowledge k location)
    | work w outcome =>
      show Charges 0 s (s.thread (work cfg w outcome (s.workers w))) ∨ _
      cases hw : s.workers w with
      | ready t r =>
        have hcharges : Charges _ s (s.thread (work cfg w outcome (.ready t r))) :=
          charges_record w t r
        by_cases ht : speculative (s.tasks t) = true
        · rw [if_pos ht] at hcharges
          refine .inr ⟨t, ?_, ht, ?_⟩
          · unfold recording
            simp only [hw]
          · show Charges 1 s (s.thread (work cfg w outcome (s.workers w)))
            rw [hw]
            exact hcharges
        · rw [if_neg ht] at hcharges
          exact .inl hcharges
      | trimming t r cachedBytes candidates =>
        refine .inl ?_
        cases candidates with
        | nil =>
          refine .of_eq rfl rfl id ?_
          show s.profiler.useful + s.profiler.wasted + s.profiler.late + 0 +
            s.prefetchedReady.length ≤ s.charged + 0
          rw [charged_eq]
          omega
        | cons c rest => exact charges_trim hr hw
      | _ =>
        refine absurd ?_ hquiet
        unfold quiet
        simp only [hw]
    | _ => exact absurd rfl hquiet

/-! ## the transfers that completed -/

/-- the worker is past the transfer of its task -/
def transferDone : WorkerPc → Bool
  | .waiting => false
  | .popped _ => false
  | .loading _ => false
  | .exited => false
  | _ => true

/-- a task is transferred once, and said to be -/
structure Traced (c : Core) : Prop where
  onward : ∀ t e, e ∈ c.history → transferOf t e = true → Onward transferDone c t
  told : ∀ w t, unrecorded t (c.workers w) = true → ∃ e ∈ c.history, transferOf t e = true

theorem Next.transferDone {pc pc' : WorkerPc} {t : TaskId} (h : Next cfg s pc pc')
    (hs : transferDone pc = true) (ht : (stage pc').task = some t) :
    Scheduler.transferDone pc' = true := by
  cases h
  case claim => cases hs
  case exits => cases hs
  case launch => cases hs
  case resolves => cases ht
  all_goals rfl

/-- a worker has a finished transfer in hand because its task was just transferred, or because it
had it before -/
theorem Next.unrecorded {pc pc' : WorkerPc} {t : TaskId} (h : Next cfg s pc pc')
    (hu : unrecorded t pc' = true) : pc = .loading t ∨ Scheduler.unrecorded t pc = true := by
  cases h
  case transferred => exact .inl (congrArg _ (of_decide_eq_true hu))
  case finish => exact .inr hu
  all_goals cases hu

theorem task_of_unrecorded {pc : WorkerPc} {t : TaskId} (h : unrecorded t pc = true) :
    stage pc = .holds t := by
  cases pc with
  | transferred t' r => exact congrArg _ (of_decide_eq_true h)
  | ready t' r => exact congrArg _ (of_decide_eq_true h)
  | _ => cases h

theorem Change.traced (hd : Dispatched cfg s) (h : Change cfg s a c) (i : Traced s.core) :
    Traced c where
  onward t e he ht := by
    have hgood : ∀ w, (stage (c.workers w)).task = some t → transferDone (s.workers w) = true →
        transferDone (c.workers w) = true := by
      intro w hw hdone
      rcases h.next_of w with hsame | hn
      · rw [hsame]
        exact hdone
      · exact hn.transferDone hdone hw
    rcases h.history_eq with hsame | ⟨e', hsays, hcons⟩
    · exact (i.onward t e (hsame ▸ he) ht).change hd h hgood
    · rw [hcons] at he
      rcases List.mem_cons.mp he with rfl | he
      · cases hsays with
        | @transferred w t' r hw hc ha hs =>
          obtain rfl : t' = t := of_decide_eq_true ht
          refine .begin (w := w) hd h ?_ ?_
          · rw [hw]
            rfl
          · rw [hc]
            rfl
        | _ => cases ht
      · exact (i.onward t e he ht).change hd h hgood
  told w t hu := by
    have hkept : (∃ e ∈ s.core.history, transferOf t e = true) →
        ∃ e ∈ c.history, transferOf t e = true :=
      fun ⟨e, he, ht⟩ => ⟨e, h.mem_history he, ht⟩
    by_cases hsame : c.workers w = s.workers w
    · rw [hsame] at hu
      exact hkept (i.told w t hu)
    · have hdid := h.did hsame
      rcases h.next_of w with hsame' | hn
      · exact absurd hsame' hsame
      · rcases hn.unrecorded hu with hw | hw
        · rw [hw] at hdid hn
          generalize c.workers w = pc at hdid hn hu
          cases hn with
          | aborted hr => cases hu
          | transferred ha hs => exact ⟨_, hdid, hu⟩
        · exact hkept (i.told w t hw)

theorem new_traced : Traced ({} : Scheduler).core where
  onward _ _ he _ := nomatch he
  told _ _ hu := nomatch hu

theorem noted_of_transferOf {t : TaskId} {e : Event} (h : transferOf t e = true) :
    e.noted = true := by
  cases e with
  | transferred t' r => rfl
  | _ => cases h

/-- what was recorded stays recorded -/
theorem Recorded.step {t : TaskId} (hs : Sound cfg s) (i : Traced s.core)
    (h : step cfg a s = some s') (hr : Recorded cfg s t) : Recorded cfg s' t := by
  obtain ⟨hc, -⟩ := step_change hs.dispatched hs.tracked h
  obtain ⟨⟨e, he, ht⟩, hw⟩ := hr
  have hcore : e ∈ s.core.history := noted_mem (noted_of_transferOf ht) he
  refine ⟨⟨e, mem_of_noted (hc.mem_history hcore), ht⟩, fun w hlt => ?_⟩
  rw [← Bool.not_eq_true]
  intro hu
  rcases hc.next_of w with hsame | hn
  · replace hsame : s'.workers w = s.workers w := hsame
    rw [hsame, hw w hlt] at hu
    cases hu
  · rcases hn.unrecorded hu with hload | hbefore
    · -- a task that was transferred is not on its way to a transfer
      have hdone := (i.onward t e hcore ht).good w (by
        show (stage (s.workers w)).task = some t
        rw [hload]
        rfl)
      replace hdone : transferDone (s.workers w) = true := hdone
      rw [hload] at hdone
      cases hdone
    · rw [hw w hlt] at hbefore
      cases hbefore

/-! ## the outcomes that can still be counted -/

/-- the prefetches whose outcome is still with their tasks -/
def undecided (recorded : TaskId → Prop) [DecidablePred recorded] (s : Scheduler) : Finset TaskId :=
  (Finset.range s.nextTask).filter fun t => speculative (s.tasks t) = true ∧ ¬ recorded t

def promised (recorded : TaskId → Prop) [DecidablePred recorded] (s : Scheduler) : Nat :=
  s.charged + (undecided recorded s).card

section

variable {recorded recorded' : TaskId → Prop} [DecidablePred recorded] [DecidablePred recorded']

theorem mem_undecided {t : TaskId} : t ∈ undecided recorded s ↔
    t < s.nextTask ∧ speculative (s.tasks t) = true ∧ ¬ recorded t := by
  unfold undecided
  rw [Finset.mem_filter, Finset.mem_range]

/-- no task is new, none becomes speculative, and what was recorded stays so -/
theorem undecided_subset (hrec : ∀ t, recorded t → recorded' t) (hn : s'.nextTask = s.nextTask)
    (ht : ∀ t, speculative (s'.tasks t) = true → speculative (s.tasks t) = true) :
    undecided recorded' s' ⊆ undecided recorded s := by
  intro t hmem
  obtain ⟨hlt, hsp, hr⟩ := mem_undecided.mp hmem
  exact mem_undecided.mpr ⟨hn ▸ hlt, ht t hsp, fun h => hr (hrec t h)⟩

/-- one of them is decided -/
theorem card_undecided_lt {t : TaskId} (hsub : undecided recorded' s' ⊆ undecided recorded s)
    (hmem : t ∈ undecided recorded s) (hgone : t ∉ undecided recorded' s') :
    (undecided recorded' s').card + 1 ≤ (undecided recorded s).card :=
  Finset.card_lt_card (Finset.ssubset_iff_subset_ne.mpr
    ⟨hsub, fun he => hgone (he ▸ hmem)⟩)

/-- a new task -/
theorem card_undecided_new {isPrefetch : Bool} (hn : s'.nextTask = s.nextTask + 1)
    (ht : ∀ t, t ≠ s.nextTask → speculative (s'.tasks t) = speculative (s.tasks t))
    (hnew : speculative (s'.tasks s.nextTask) = isPrefetch) :
    (undecided recorded s').card ≤ (undecided recorded s).card + if isPrefetch then 1 else 0 := by
  have hold : ∀ t, t ∈ undecided recorded s' → t ≠ s.nextTask → t ∈ undecided recorded s := by
    intro t hmem hne
    obtain ⟨hlt, hsp, hr⟩ := mem_undecided.mp hmem
    rw [hn] at hlt
    exact mem_undecided.mpr ⟨Nat.lt_of_le_of_ne (Nat.le_of_lt_succ hlt) hne, ht t hne ▸ hsp, hr⟩
  cases isPrefetch with
  | false =>
    refine Finset.card_le_card fun t hmem => hold t hmem ?_
    rintro rfl
    exact absurd (hnew.symm.trans (mem_undecided.mp hmem).2.1) (by simp)
  | true =>
    have hsub : undecided recorded s' ⊆ insert s.nextTask (undecided recorded s) := by
      intro t hmem
      by_cases hne : t = s.nextTask
      · exact Finset.mem_insert.mpr (.inl hne)
      · exact Finset.mem_insert_of_mem (hold t hmem hne)
    exact (Finset.card_le_card hsub).trans (Finset.card_insert_le ..)

end

/-- the step that records the finished transfer of a task, from the state before it -/
theorem recorded_of_recording {t : TaskId} (hs : Sound cfg s) (i : Traced s.core)
    (h : step cfg a s = some s') (hrec : recording s a = some t) :
    t < s.nextTask ∧ ¬ Recorded cfg s t ∧ Recorded cfg s' t := by
  cases a with
  | work w outcome =>
    unfold recording at hrec
    cases hw : s.workers w with
    | ready t' r =>
      simp only [hw, Option.some.injEq] at hrec
      subst hrec
      have hholds : stage (s.workers w) = .holds t' := by
        rw [hw]
        rfl
      have hbefore : unrecorded t' (s.workers w) = true := by
        rw [hw]
        exact decide_eq_true rfl
      obtain ⟨hc, -⟩ := step_change hs.dispatched hs.tracked h
      have hs' := step_sound hs h
      obtain ⟨-, hallows, rfl⟩ := step_eq h
      have hcan : (w < cfg.workerCount ∧ s.canWork w outcome = true : Bool) = true := hallows
      obtain ⟨e, he, hte⟩ := i.told w t' hbefore
      refine ⟨(hs.dispatched.1.holds w t' hholds).1, fun hr => ?_,
        ⟨e, mem_of_noted (hc.mem_history he), hte⟩, fun w' _ => ?_⟩
      · rw [hr.2 w (of_decide_eq_true hcan).1] at hbefore
        cases hbefore
      · rw [← Bool.not_eq_true]
        intro hu
        -- the worker that has the transfer in hand is the one that has just recorded it
        obtain rfl := exclusive_task hs'.dispatched (hc.keepsTask hholds)
          (congrArg Dispatch.Stage.task (task_of_unrecorded hu))
        have hgone : unrecorded t' ((s.record w' t' r).workers w') = false := by
          unfold Scheduler.record
          show unrecorded t' (Scheduler.workers (if _ then _ else _) w') = false
          split
          · show unrecorded t' (Function.update s.workers w' _ w') = false
            rw [Function.update_self]
            rfl
          · show unrecorded t' (Function.update s.workers w' _ w') = false
            rw [Function.update_self]
            rfl
        have hafter : (s.perform cfg (.work w' outcome)).workers w' = (s.record w' t' r).workers w' := by
          show (s.thread (work cfg w' outcome (s.workers w'))).workers w' = _
          rw [hw]
          rfl
        rw [hafter, hgone] at hu
        cases hu
    | _ =>
      simp only [hw] at hrec
      cases hrec
  | _ => cases hrec

/-- a step that submits no request promises no outcome -/
theorem promised_le (hs : Sound cfg s) (hr : Rounds s.ledger) (i : Traced s.core)
    (h : step cfg a s = some s') (hq : a.request cfg = none) :
    promised (Recorded cfg s') s' ≤ promised (Recorded cfg s) s ∧
      s'.profiler.requests = s.profiler.requests ∧ (Balanced s.profiler → Balanced s'.profiler) := by
  have hsub : ∀ {n : Nat}, Charges n s s' →
      undecided (Recorded cfg s') s' ⊆ undecided (Recorded cfg s) s := fun hch =>
    undecided_subset (fun t hrec => Recorded.step hs i h hrec) hch.nextTask
      fun t hsp => hch.speculative t ▸ hsp
  rcases step_charges hr h hq with hch | ⟨t, hrec, ht, hch⟩
  · exact ⟨Nat.add_le_add hch.charged (Finset.card_le_card (hsub hch)), hch.requests, hch.balanced⟩
  · obtain ⟨hlt, hnot, hafter⟩ := recorded_of_recording hs i h hrec
    have hcharged := hch.charged
    have hcard := card_undecided_lt (hsub hch) (mem_undecided.mpr ⟨hlt, ht, hnot⟩)
      fun hmem => (mem_undecided.mp hmem).2.2 hafter
    refine ⟨?_, hch.requests, hch.balanced⟩
    unfold promised
    omega

/-! ## requests -/

/-- what is promised grows by `cost` more than there are new requests, and by `gain` less -/
structure Books (recorded : TaskId → Prop) [DecidablePred recorded] (gain cost : Nat)
    (s s' : Scheduler) : Prop where
  promised : s.profiler.requests + promised recorded s' + gain ≤
    s'.profiler.requests + promised recorded s + cost
  balanced : Balanced s.profiler → Balanced s'.profiler

/-- the outcome that a prefetch request pays for -/
def share (request : ScheduleRequest) : Nat := if request.isPrefetch then 1 else 0

theorem tally_coalesce (t : TaskId) (request : ScheduleRequest) (callback : Bool) (s : Scheduler) :
    (coalesce t request callback s).2.tally = { s.tally with
      speculative := Function.update s.tally.speculative t
        (speculative (s.tasks t) && !request.isActive) } := by
  have hjoined : ∀ n, speculative (joined (s.tasks t) n request callback) =
      (speculative (s.tasks t) && !request.isActive) := by
    intro n
    unfold speculative joined
    rw [Bool.not_or, Bool.and_assoc]
  rw [← hjoined s.nextRequest]
  show (putJoined t (joined (s.tasks t) s.nextRequest request callback) request _).tally = _
  unfold putJoined
  split
  · exact tally_setTask t _ (s.accept request (.task t) callback)
  · exact tally_setTask t _ (s.accept request (.task t) callback)

theorem tally_enqueue (request : ScheduleRequest) (callback : Bool) (s : Scheduler) :
    (enqueue request callback s).2.tally = { s.tally with
      nextTask := s.nextTask + 1
      speculative := Function.update s.tally.speculative s.nextTask request.isPrefetch } := by
  have hnew : speculative (newTask s.nextRequest request callback) = request.isPrefetch := by
    unfold speculative newTask ScheduleRequest.isPrefetch ScheduleRequest.isActive
    cases request.priority <;> rfl
  rw [← hnew]
  exact congrArg (Tally.mk s.profiler s.prefetchedReady s.lock (s.nextTask + 1))
    (map_update speculative s.tasks s.nextTask _)

section

variable {recorded : TaskId → Prop} [DecidablePred recorded]

theorem Books.of_charges {n : Nat} (h : Charges n s s') : Books recorded 0 n s s' := by
  have hsub : undecided recorded s' ⊆ undecided recorded s :=
    undecided_subset (fun _ => id) h.nextTask fun t hsp => h.speculative t ▸ hsp
  have hcard := Finset.card_le_card hsub
  have hcharged := h.charged
  have hrequests := h.requests
  refine ⟨?_, h.balanced⟩
  unfold Scheduler.promised
  omega

theorem Books.spend {n : Nat} {s₁ : Scheduler} (h : Books recorded n 0 s s₁)
    (h₁ : Books recorded 0 n s₁ s') : Books recorded 0 0 s s' := by
  have hp := h.promised
  have hp₁ := h₁.promised
  exact ⟨by omega, fun hb => h₁.balanced (h.balanced hb)⟩

theorem Books.waste {n : Nat} (h : Books recorded n 0 s s') : Books recorded 0 0 s s' :=
  ⟨Nat.le_of_add_right_le h.promised, h.balanced⟩

theorem Books.tally {n m : Nat} {s₁ : Scheduler} (h : Books recorded n m s s₁)
    (ht : s'.tally = s₁.tally) : Books recorded n m s s' := by
  have hc : Books recorded 0 0 s₁ s' := .of_charges ((Charges.refl s₁).tally ht)
  have hp := h.promised
  have hp₁ := hc.promised
  exact ⟨by omega, fun hb => hc.balanced (h.balanced hb)⟩

/-! ### what follows the observation -/

theorem books_acceptReady (request : ScheduleRequest) (callback : Bool) :
    Books recorded 0 (share request) s (acceptReady request callback s).2 := by
  unfold acceptReady share
  by_cases hp : request.isPrefetch = true
  · have hlen := length_insert_le request.key s.prefetchedReady
    rw [if_pos hp, if_pos hp]
    refine .of_charges (.of_eq rfl rfl id ?_)
    show s.profiler.useful + s.profiler.wasted + s.profiler.late + inLoop s.lock +
      (s.prefetchedReady.insert request.key).length ≤ s.charged + 1
    rw [charged_eq]
    omega
  · rw [if_neg hp, if_neg hp]
    exact .of_charges ((Charges.refl s).tally rfl)

/-- a request that joins a task decides no more than that task -/
theorem speculative_coalesce {t t' : TaskId} {request : ScheduleRequest} {callback : Bool}
    (h : speculative ((coalesce t request callback s).2.tasks t') = true) :
    speculative (s.tasks t') = true ∧ (t' = t → request.isActive = false) := by
  have ht := congrFun (congrArg Tally.speculative (tally_coalesce t request callback s)) t'
  replace ht : speculative ((coalesce t request callback s).2.tasks t') =
    Function.update s.tally.speculative t (speculative (s.tasks t) && !request.isActive) t' := ht
  rw [ht, Function.update_apply] at h
  split at h
  · next he =>
    obtain ⟨hsp, hactive⟩ := Bool.and_eq_true_iff.mp h
    exact ⟨he ▸ hsp, fun _ => by simpa using hactive⟩
  · next hne => exact ⟨h, fun he => absurd he hne⟩

theorem books_coalesce (t : TaskId) (request : ScheduleRequest) (callback : Bool) :
    Books recorded 0 0 s (coalesce t request callback s).2 := by
  have ht := tally_coalesce t request callback s
  have hcharged : (coalesce t request callback s).2.charged = s.charged :=
    (congrArg Tally.charged ht).trans rfl
  have hprofiler : (coalesce t request callback s).2.profiler = s.profiler :=
    congrArg Tally.profiler ht
  have hsub : undecided recorded (coalesce t request callback s).2 ⊆ undecided recorded s :=
    undecided_subset (fun _ => id) (congrArg Tally.nextTask ht) fun _ h => (speculative_coalesce h).1
  have hcard := Finset.card_le_card hsub
  refine ⟨?_, fun hb => hprofiler ▸ hb⟩
  rw [hprofiler]
  unfold promised
  omega

theorem books_enqueue (request : ScheduleRequest) (callback : Bool) :
    Books recorded 0 (share request) s (enqueue request callback s).2 := by
  have ht := tally_enqueue request callback s
  have hcharged : (enqueue request callback s).2.charged = s.charged :=
    (congrArg Tally.charged ht).trans rfl
  have hspeculative : ∀ t', speculative ((enqueue request callback s).2.tasks t') =
      Function.update s.tally.speculative s.nextTask request.isPrefetch t' :=
    fun t' => congrFun (congrArg Tally.speculative ht) t'
  have hcard : (undecided recorded (enqueue request callback s).2).card ≤
      (undecided recorded s).card + if request.isPrefetch then 1 else 0 :=
    card_undecided_new (congrArg Tally.nextTask ht)
      (fun t' hne => (hspeculative t').trans (Function.update_of_ne hne ..))
      ((hspeculative s.nextTask).trans (Function.update_self ..))
  refine ⟨?_, id⟩
  show s.profiler.requests + _ + 0 ≤ s.profiler.requests + _ + _
  unfold promised share
  omega

end

/-! ### the observation -/

/-- an active request joins a pending prefetch before it is ready: the outcome that it counts is
taken from the task when the request joins it -/
structure Late (cfg : SchedulerConfig) (s : Scheduler) (request : ScheduleRequest) (t : TaskId)
    (s₁ : Scheduler) : Prop where
  active : request.isActive = true
  pending : s.pendingByExpert request.key = some t
  same : (s.tasks t).request.destination = request.destination
  undecided : t ∈ undecided (Recorded cfg s) s
  after : s₁ = { s with profiler := s.profiler.missed }

/-- the outcome of a task is counted as a hit, and the task gets its active consumer -/
theorem books_consumed {recorded : TaskId → Prop} [DecidablePred recorded] {t : TaskId}
    (k : ExpertKey) (hmem : t ∈ undecided recorded s) : Books recorded 0 0 s
      { (forgetPrefetched k s).setTask t { s.tasks t with activeConsumer := true } with
        profiler := s.profiler.hit } := by
  have htask : ∀ t', speculative (Function.update s.tasks t
      { s.tasks t with activeConsumer := true } t') = true →
      speculative (s.tasks t') = true ∧ t' ≠ t := by
    intro t' h
    rw [Function.update_apply] at h
    split at h
    · exact absurd (speculative_iff.mp h).2 (by simp)
    · next hne => exact ⟨h, hne⟩
  let s₁ : Scheduler :=
    { (forgetPrefetched k s).setTask t { s.tasks t with activeConsumer := true } with
      profiler := s.profiler.hit }
  have hsub : undecided recorded s₁ ⊆ undecided recorded s :=
    undecided_subset (fun _ => id) rfl fun t' h => (htask t' h).1
  have hcard := card_undecided_lt hsub hmem fun hmem' => (htask t (mem_undecided.mp hmem').2.1).2 rfl
  have hlen : (s.prefetchedReady.erase k).length ≤ s.prefetchedReady.length := List.length_erase_le
  refine ⟨?_, fun h => ⟨congrArg (· + 1) h.hits, h.misses⟩⟩
  show s.profiler.requests + (s.profiler.useful + 1 + s.profiler.wasted + s.profiler.late +
    inLoop s.lock + (s.prefetchedReady.erase k).length + (undecided recorded s₁).card) + 0 ≤
      s.profiler.requests + (s.charged + (undecided recorded s).card) + 0
  rw [charged_eq]
  omega

theorem books_observePending {t : TaskId} {request : ScheduleRequest} {e : ExpertState}
    (ha : request.isActive = true) (ht : s.pendingByExpert request.key = some t)
    (hlt : t < s.nextTask) (hready : ¬ (request.key ∈ s.prefetchedReady ∧
      isReadyAt e request.destination = true))
    (hu : (s.tasks t).prefetchRequest = true → request.key ∈ s.prefetchedReady ∨
      (Undecided cfg s t ∧ (isReadyAt e request.destination = true ∨
        (s.tasks t).request.destination = request.destination))) :
    Books (Recorded cfg s) 0 0 s
      (observePending t (isReadyAt e request.destination) (forgetPrefetched request.key s)) ∨
    Late cfg s request t
      (observePending t (isReadyAt e request.destination) (forgetPrefetched request.key s)) := by
  unfold observePending
  by_cases hp : (s.tasks t).prefetchRequest = true
  · rw [if_pos (show ((forgetPrefetched request.key s).tasks t).prefetchRequest = true from hp)]
    by_cases hr : isReadyAt e request.destination = true
    · -- the outcome of the task is counted as a hit
      rw [if_pos hr]
      obtain ⟨hun, -⟩ := (hu hp).resolve_left fun hm => hready ⟨hm, hr⟩
      exact .inl (books_consumed request.key (mem_undecided.mpr ⟨hlt, hun⟩))
    · rw [if_neg hr]
      by_cases hm : request.key ∈ s.prefetchedReady
      · -- the outcome of the mark is counted as late
        have hlen := length_erase_add_one hm
        refine .inl (.of_charges (.of_eq rfl rfl (fun h => ⟨h.hits, congrArg (· + 1) h.misses⟩) ?_))
        show s.profiler.useful + s.profiler.wasted + (s.profiler.late + 1) + inLoop s.lock +
          (s.prefetchedReady.erase request.key).length ≤ s.charged + 0
        rw [charged_eq]
        omega
      · obtain ⟨hun, hd⟩ := (hu hp).resolve_left hm
        refine .inr ⟨ha, ht, hd.resolve_left hr, mem_undecided.mpr ⟨hlt, hun⟩, ?_⟩
        unfold forgetPrefetched
        rw [List.erase_of_not_mem hm]
  · rw [if_neg (show ¬ ((forgetPrefetched request.key s).tasks t).prefetchRequest = true from hp)]
    have hlen : (s.prefetchedReady.erase request.key).length ≤ s.prefetchedReady.length :=
      List.length_erase_le
    refine .inl (.of_charges (.of_eq rfl rfl id ?_))
    show s.profiler.useful + s.profiler.wasted + s.profiler.late + inLoop s.lock +
      (s.prefetchedReady.erase request.key).length ≤ s.charged + 0
    rw [charged_eq]
    omega

theorem books_observeActive {request : ScheduleRequest} {e : ExpertState} (hs : Sound cfg s)
    (ha : request.isActive = true) (hstop : s.stopping = false)
    (he : s.states request.key = some e) (hu : Unclassified cfg s request) :
    Books (Recorded cfg s) 0 0 s (observeActive request e (s.pendingByExpert request.key) s) ∨
    ∃ t, Late cfg s request t (observeActive request e (s.pendingByExpert request.key) s) := by
  unfold observeActive
  have hlen : (s.prefetchedReady.erase request.key).length ≤ s.prefetchedReady.length :=
    List.length_erase_le
  show Books _ 0 0 s (if request.key ∈ s.prefetchedReady ∧ isReadyAt e request.destination = true
    then _ else _) ∨ ∃ t, Late cfg s request t (if request.key ∈ s.prefetchedReady ∧
      isReadyAt e request.destination = true then _ else _)
  by_cases hready : request.key ∈ s.prefetchedReady ∧ isReadyAt e request.destination = true
  · -- the outcome of the mark is counted as a hit
    have hlen := length_erase_add_one hready.1
    rw [if_pos hready]
    refine .inl (.of_charges (.of_eq rfl rfl (fun h => ⟨congrArg (· + 1) h.hits, h.misses⟩) ?_))
    show s.profiler.useful + 1 + s.profiler.wasted + s.profiler.late + inLoop s.lock +
      (s.prefetchedReady.erase request.key).length ≤ s.charged + 0
    rw [charged_eq]
    omega
  · rw [if_neg hready]
    cases ht : s.pendingByExpert request.key with
    | none =>
      refine .inl (.of_charges (.of_eq rfl rfl id ?_))
      show s.profiler.useful + s.profiler.wasted + s.profiler.late + inLoop s.lock +
        (s.prefetchedReady.erase request.key).length ≤ s.charged + 0
      rw [charged_eq]
      omega
    | some t =>
      have hlt : t < s.nextTask := (hs.dispatched.1.pendingKey _ t ht).1
      exact (books_observePending ha ht hlt hready (hu ha hstop e he t ht)).imp_right fun h => ⟨t, h⟩

theorem books_observeRequest {request : ScheduleRequest} {e : ExpertState} (hs : Sound cfg s)
    (hprofiled : cfg.profiled = true) (hstop : s.stopping = false)
    (he : s.states request.key = some e) (hu : Unclassified cfg s request) :
    Books (Recorded cfg s) (share request) 0 s
      (observeRequest cfg request e (s.pendingByExpert request.key) s) ∨
    ∃ t, Late cfg s request t
      (observeRequest cfg request e (s.pendingByExpert request.key) s) := by
  unfold observeRequest share
  rw [if_pos hprofiled]
  by_cases hp : request.isPrefetch = true
  · rw [if_pos hp, if_pos hp]
    refine .inl ⟨?_, fun h => ⟨h.hits, h.misses⟩⟩
    show s.profiler.requests + promised (Recorded cfg s) s + 1 ≤
      s.profiler.requests + 1 + promised (Recorded cfg s) s + 0
    omega
  · rw [if_neg hp, if_neg hp]
    by_cases ha : request.isActive = true
    · rw [if_pos ha]
      exact books_observeActive hs ha hstop he hu
    · rw [if_neg ha]
      exact .inl (.of_charges (.refl s))

/-- the request joins the task, whose outcome is then the one that was counted as late -/
theorem books_late {request : ScheduleRequest} {t : TaskId} {s₁ : Scheduler}
    (h : Late cfg s request t s₁) (callback : Bool) :
    Books (Recorded cfg s) 0 0 s (coalesce t request callback s₁).2 := by
  obtain ⟨hactive, -, -, hmem, rfl⟩ := h
  have ht := tally_coalesce t request callback { s with profiler := s.profiler.missed }
  have hjoins : ∀ t', speculative ((coalesce t request callback
      { s with profiler := s.profiler.missed }).2.tasks t') = true →
      speculative (s.tasks t') = true ∧ (t' = t → request.isActive = false) :=
    fun _ hsp => speculative_coalesce (s := { s with profiler := s.profiler.missed }) hsp
  generalize (coalesce t request callback { s with profiler := s.profiler.missed }).2 = s'
    at ht hjoins
  have hcharged : s'.charged = ({ s with profiler := s.profiler.missed } : Scheduler).charged :=
    (congrArg Tally.charged ht).trans rfl
  have hprofiler : s'.profiler = s.profiler.missed := congrArg Tally.profiler ht
  have hsub : undecided (Recorded cfg s) s' ⊆ undecided (Recorded cfg s) s :=
    undecided_subset (fun _ => id) (congrArg Tally.nextTask ht) fun t' h => (hjoins t' h).1
  have hcard := card_undecided_lt hsub hmem fun hmem' =>
    absurd (hactive.symm.trans ((hjoins t (mem_undecided.mp hmem').2.1).2 rfl)) (by simp)
  refine ⟨?_, fun h => ?_⟩
  · rw [hprofiler]
    unfold promised
    rw [hcharged]
    show s.profiler.requests + (s.profiler.useful + s.profiler.wasted + (s.profiler.late + 1) +
      inLoop s.lock + s.prefetchedReady.length + (undecided (Recorded cfg s) s').card) + 0 ≤
        s.profiler.requests + (s.charged + (undecided (Recorded cfg s) s).card) + 0
    rw [charged_eq]
    omega
  · rw [hprofiler]
    exact ⟨h.hits, congrArg (· + 1) h.misses⟩

/-- a request under the condition promises no more than it pays for -/
theorem books_schedule {request : ScheduleRequest} (hs : Sound cfg s)
    (hprofiled : cfg.profiled = true) (hu : Unclassified cfg s request) (callback : Bool) :
    Books (Recorded cfg s) 0 0 s (s.answer (schedule cfg request callback)) := by
  have hobserved : ∀ {e : ExpertState} {existing : Option TaskId}, s.stopping = false →
      s.states request.key = some e → s.pendingByExpert request.key = existing →
      Books (Recorded cfg s) (share request) 0 s (observeRequest cfg request e existing s) ∨
      ∃ t, existing = some t ∧ Late cfg s request t (observeRequest cfg request e existing s) := by
    rintro e _ hstop he rfl
    exact (books_observeRequest hs hprofiled hstop he hu).imp_right fun ⟨t, h⟩ => ⟨t, h.pending, h⟩
  refine answer_of (P := fun s' => Books (Recorded cfg s) 0 0 s s')
    (wp_schedule_cases ?_ ?_ ?_ ?_ ?_ ?_ ?_)
  · exact fun _ => .of_charges ((Charges.refl s).tally rfl)
  · exact fun _ _ => .of_charges ((Charges.refl s).tally rfl)
  · rintro s₁ e rfl hstop he hi
    rcases hobserved hstop he rfl with h | ⟨t, ht, -⟩
    · exact (h.spend (books_acceptReady request callback)).tally rfl
    · -- who is answered at once meets no task
      unfold immediatelyReady at hi
      simp [ht] at hi
  · rintro s₁ e t rfl hstop he ht hd
    rcases hobserved hstop he rfl with h | ⟨t', ht', h⟩
    · exact h.waste.tally rfl
    · obtain rfl := Option.some.inj (ht.symm.trans ht')
      exact absurd h.same hd
  · rintro s₁ e t rfl hstop he ht hd
    rcases hobserved hstop he rfl with h | ⟨t', ht', h⟩
    · exact (h.waste.spend (books_coalesce t request callback)).tally rfl
    · obtain rfl := Option.some.inj (ht.symm.trans ht')
      exact (books_late h callback).tally rfl
  · rintro s₁ e rfl hstop he ht hi hc x
    rcases hobserved hstop he ht with h | ⟨t', ht', -⟩
    · exact h.waste.tally rfl
    · cases ht'
  · rintro s₁ e rfl hstop he ht hi hc s₂ rfl
    rcases hobserved hstop he ht with h | ⟨t', ht', -⟩
    · exact ((h.tally rfl).spend (books_enqueue request callback)).tally rfl
    · cases ht'

/-! ## steps and runs -/

/-- what is promised was paid for, and what carries this from step to step -/
structure Paid (cfg : SchedulerConfig) (s : Scheduler) : Prop where
  sound : Sound cfg s
  traced : Traced s.core
  rounds : Rounds s.ledger
  balanced : Balanced s.profiler
  promised : promised (Recorded cfg s) s ≤ s.profiler.requests

theorem new_paid : Paid cfg {} where
  sound := new_sound
  traced := new_traced
  rounds := ⟨fun _ _ _ h => (nomatch h), fun _ _ h => (nomatch h)⟩
  balanced := ⟨rfl, rfl⟩
  promised := Nat.le_refl 0

theorem request_condition {request : ScheduleRequest} (ha : a.request cfg = some request)
    (hc : OnceClassified cfg s a) : Unclassified cfg s request := by
  cases a with
  | schedule request' callback =>
    obtain rfl := Option.some.inj ha
    exact hc
  | prefetch prediction callback =>
    obtain rfl := Option.some.inj ha
    exact fun h => absurd h (by simp [prefetchRequest, ScheduleRequest.isActive])
  | _ => cases ha

theorem perform_request {request : ScheduleRequest} (ha : a.request cfg = some request) :
    ∃ callback, s.perform cfg a = s.answer (schedule cfg request callback) := by
  cases a with
  | schedule request' callback =>
    obtain rfl := Option.some.inj ha
    exact ⟨callback, rfl⟩
  | prefetch prediction callback =>
    obtain rfl := Option.some.inj ha
    exact ⟨callback, rfl⟩
  | _ => cases ha

theorem Paid.step (hprofiled : cfg.profiled = true) (h : step cfg a s = some s')
    (hc : OnceClassified cfg s a) (i : Paid cfg s) : Paid cfg s' := by
  obtain ⟨hchange, -⟩ := step_change i.sound.dispatched i.sound.tracked h
  have hkept := i.promised
  have hbooks : Balanced s'.profiler ∧
      Scheduler.promised (Recorded cfg s') s' ≤ s'.profiler.requests := by
    cases hq : a.request cfg with
    | none =>
      obtain ⟨hp, hr, hb⟩ := promised_le i.sound i.rounds i.traced h hq
      exact ⟨hb i.balanced, by omega⟩
    | some request =>
      obtain ⟨callback, hperform⟩ := perform_request (s := s) hq
      have hbooks := books_schedule i.sound hprofiled (request_condition hq hc) callback
      rw [← hperform, ← (step_eq h).2.2] at hbooks
      have hp := hbooks.promised
      have hsub : undecided (Recorded cfg s') s' ⊆ undecided (Recorded cfg s) s' :=
        undecided_subset (fun t hrec => Recorded.step i.sound i.traced h hrec) rfl fun _ => id
      have hcard := Finset.card_le_card hsub
      refine ⟨hbooks.balanced i.balanced, ?_⟩
      unfold Scheduler.promised at hp hkept ⊢
      omega
  exact
    { sound := step_sound i.sound h
      traced := hchange.traced i.sound.dispatched i.traced
      rounds := (step_ledger i.sound h).rounds i.sound i.rounds
      balanced := hbooks.1
      promised := hbooks.2 }

theorem run_outcomes (cfg : SchedulerConfig) (hprofiled : cfg.profiled = true) (as : List Action)
    (hc : Runs.Along (step cfg) (fun s a _ => OnceClassified cfg s a) {} as)
    (h : run cfg as = some s) : Covered s.profiler := by
  have hkeeps : ∀ s a s', step cfg a s = some s' → OnceClassified cfg s a → Paid cfg s → Paid cfg s' :=
    fun _ _ _ hstep hone i => i.step hprofiled hstep hone
  have i : Paid cfg s := Runs.run_keeps hkeeps as {} s hc new_paid h
  have hp := i.promised
  have hb := i.balanced
  unfold promised at hp
  rw [charged_eq] at hp
  refine ⟨by omega, ?_⟩
  rw [hb.hits, hb.misses]
  omega

/-- a prefetch that a demand joins, and one that the next layer finds unused -/
def lateAndWasted : List Action :=
  .registerExpert (0, 1) .Nvme :: .registerExpert (0, 2) .Nvme :: .prefetch ⟨0, 1, 1, 1⟩ false ::
    .schedule { expertId := 1, destination := .Ram } false :: brings (sized (0, 1) 6) 0 ++
    .prefetch ⟨0, 2, 1, 1⟩ false :: brings (sized (0, 2) 6) 2 ++
    [.expirePrefetchesBefore 1 [(0, 2)], .expireNext, .expireNext]

theorem run_outcomes_late_and_wasted : ∃ s, run observedConfig lateAndWasted = some s ∧
    s.profiler = { requests := 2, hits := 0, useful := 0, misses := 1, late := 1, wasted := 1 } ∧
    Covered s.profiler := by
  have hall : (run observedConfig lateAndWasted).any (fun s => s.profiler =
      { requests := 2, hits := 0, useful := 0, misses := 1, late := 1, wasted := 1 }) = true := by
    decide +kernel
  obtain ⟨s, hr, hcounts⟩ := Option.any_eq_true _ _ |>.mp hall
  exact ⟨s, hr, of_decide_eq_true hcounts, run_outcomes _ rfl _ (by decide +kernel) hr⟩

/-- two demands join one prefetch: it is late twice -/
def sharedPrefetch : List Action :=
  [.registerExpert (0, 1) .Nvme, .prefetch ⟨0, 1, 1, 1⟩ false,
    .schedule { expertId := 1, destination := .Ram } false,
    .schedule { expertId := 1, destination := .Ram } false]

theorem not_covered_shared_prefetch : ¬ ∀ (cfg : SchedulerConfig) (as : List Action) (s : Scheduler),
    cfg.profiled = true → run cfg as = some s → Covered s.profiler := by
  have hall : (run observedConfig sharedPrefetch).any (fun s => s.profiler =
      { requests := 1, hits := 0, useful := 0, misses := 2, late := 2, wasted := 0 }) = true := by
    decide +kernel
  intro h
  obtain ⟨s, hr, hcounts⟩ := Option.any_eq_true _ _ |>.mp hall
  have hcovered := h observedConfig sharedPrefetch s rfl hr
  rw [of_decide_eq_true hcounts] at hcovered
  exact absurd hcovered (by decide)

end HyperMoE.Scheduler
