import HyperMoE.Lib.Agenda
import HyperMoE.Scheduler.Speculation

/-!
# The order in which tasks are started

The queue of the scheduler, with the entries that an upgrade leaves behind, is an agenda
(`Lib.Agenda`): every step of the scheduler is a step of it.

* `agenda`           the queue, and what the tasks stand at;
* `step_agenda`      a step of the scheduler is a step of its agenda;
* `latestEnqueue`    the number under which a task was put into the queue last in a run;
* `dispatch_order`   the task that a worker starts is before every other task that waits; no task
                     loses priority or score, and once started it keeps both.
-/

namespace HyperMoE.Scheduler

open Lib Lib.Fallible

variable {cfg : SchedulerConfig} {s s' : Scheduler}

/-! ## the agenda -/

/-- priority first, then score -/
abbrev Rank := ℤ ×ₗ ℚ

def rank (task : Task) : Rank := toLex (task.request.priority.toInt, task.request.priorityScore)

def slot (task : Task) : Agenda.Slot Rank := ⟨rank task, task.generation, task.started⟩

def listed (e : QueueEntry) : Agenda.Entry Rank :=
  ⟨e.task, toLex (e.priority.toInt, e.priorityScore), e.sequence, e.generation⟩

def agenda (s : Scheduler) : Agenda Rank where
  slots t := slot (s.tasks t)
  next := s.nextTask
  queue := s.queue.map listed
  number := s.nextSequence

/-- neither priority nor score is lower -/
def Raises (r r' : Rank) : Prop := (ofLex r).1 ≤ (ofLex r').1 ∧ (ofLex r).2 ≤ (ofLex r').2

theorem toInt_inj {p q : TransferPriority} : p.toInt = q.toInt ↔ p = q := by
  constructor
  · cases p <;> cases q <;> simp [TransferPriority.toInt]
  · rintro rfl
    rfl

theorem lowerThan_iff {a b : QueueEntry} :
    a.lowerThan b = true ↔ (listed a).key < (listed b).key := by
  have hkey : (listed a).key < (listed b).key ↔
      (a.priority.toInt < b.priority.toInt ∨
        a.priority.toInt = b.priority.toInt ∧ a.priorityScore < b.priorityScore) ∨
      toLex (a.priority.toInt, a.priorityScore) = toLex (b.priority.toInt, b.priorityScore) ∧
        b.sequence < a.sequence :=
    Agenda.standing_lt_iff.trans (or_congr_left Prod.Lex.toLex_lt_toLex)
  rw [hkey, toLex_inj, Prod.mk.injEq, toInt_inj]
  unfold QueueEntry.lowerThan
  split
  · next hp =>
    have hne : a.priority.toInt ≠ b.priority.toInt := fun h => hp (toInt_inj.mp h)
    simp [hp]
  · next hp =>
    have he : a.priority = b.priority := not_not.mp hp
    split
    · next hs => simp [he, hs]
    · next hs => simp [he, not_not.mp hs]

theorem push_listed (e : QueueEntry) (queue : List QueueEntry) :
    (push e queue).map listed = Agenda.insert (listed e) (queue.map listed) := by
  induction queue with
  | nil => rfl
  | cons a rest ih =>
    unfold push
    show _ = if (listed a).key < (listed e).key then _ else _
    by_cases h : a.lowerThan e = true
    · rw [if_pos h, if_pos (lowerThan_iff.mp h)]
      rfl
    · rw [if_neg h, if_neg fun hlt => h (lowerThan_iff.mpr hlt), ← ih]
      rfl

theorem agenda_setTask (t : TaskId) (task : Task) (s : Scheduler) :
    (s.setTask t task).agenda =
      { s.agenda with slots := Function.update s.agenda.slots t (slot task) } := by
  unfold agenda setTask
  rw [← map_update slot]

/-- a change of a task that the agenda does not see -/
theorem agenda_setTask_same {t : TaskId} {task : Task} (h : slot task = slot (s.tasks t)) :
    (s.setTask t task).agenda = s.agenda := by
  rw [agenda_setTask, h]
  show ({ s.agenda with slots := Function.update s.agenda.slots t (s.agenda.slots t) } :
    Agenda Rank) = _
  rw [Function.update_eq_self]

theorem agenda_enqueueEntry (t : TaskId) (task : Task) (s : Scheduler) :
    ((s.setTask t task).enqueueEntry t task).agenda = s.agenda.enqueue t (slot task) := by
  let e : QueueEntry :=
    ⟨t, task.request.priority, s.nextSequence, task.generation, task.request.priorityScore⟩
  have hqueue : ((s.setTask t task).enqueueEntry t task).agenda = { (s.setTask t task).agenda with
      queue := (push e s.queue).map listed
      number := s.nextSequence + 1 } := rfl
  have hentry : listed e = ⟨t, (slot task).rank, s.nextSequence, (slot task).generation⟩ := rfl
  rw [hqueue, agenda_setTask, push_listed, hentry]
  rfl

theorem Observed.agenda {k : ExpertKey} {s₁ : Scheduler} (h : Observed k s s₁) :
    s₁.agenda = s.agenda := by
  have hslots : ∀ t, slot (s₁.tasks t) = slot (s.tasks t) := h.task slot fun _ => rfl
  have hagenda : s₁.agenda = { s.agenda with slots := fun t => slot (s₁.tasks t) } := by
    rw [h.same]
    rfl
  rw [hagenda, funext hslots]
  rfl

/-! ## schedule -/

theorem raises_upgraded (task : Task) (request : ScheduleRequest) :
    Raises (rank task) (rank (upgraded task request)) := by
  refine ⟨?_, le_max_left ..⟩
  show task.request.priority.toInt ≤ TransferPriority.toInt (if _ then _ else _)
  split
  · next h => exact Int.le_of_lt (of_decide_eq_true h)
  · exact Int.le_refl _

theorem agenda_coalesce {t : TaskId} {request : ScheduleRequest} {callback : Bool}
    (ht : t < s.nextTask) :
    Agenda.Step Raises s.agenda (coalesce t request callback s).2.agenda := by
  let task := joined (s.tasks t) s.nextRequest request callback
  let s₁ := s.accept request (.task t) callback
  have hslot : slot task = slot (s.tasks t) := rfl
  show Agenda.Step Raises s.agenda (if upgrades task request = true then _ else _ : Scheduler).agenda
  split
  · next hu =>
    have hstarted : task.started = false := by
      unfold upgrades at hu
      simpa using (Bool.and_eq_true_iff.mp hu).2
    have hup : slot (upgraded task request) =
        ⟨rank (upgraded task request), (s.tasks t).generation + 1, false⟩ :=
      congrArg (Agenda.Slot.mk _ _) hstarted
    rw [agenda_enqueueEntry t (upgraded task request) s₁, hup]
    exact Agenda.Step.raise (a := s.agenda) ht hstarted (raises_upgraded task request)
  · rw [agenda_setTask_same (s := s₁) hslot]
    exact .same

theorem agenda_enqueue (request : ScheduleRequest) (callback : Bool) (s : Scheduler) :
    (enqueue request callback s).2.agenda =
      s.agenda.add (rank (newTask s.nextRequest request callback)) := by
  let task := newTask s.nextRequest request callback
  let s₁ : Scheduler := { s with
    nextTask := s.nextTask + 1
    cancelled := Function.update s.cancelled s.nextTask false
    pendingByExpert := Function.update s.pendingByExpert request.key (some s.nextTask) }
  exact agenda_enqueueEntry s.nextTask task (s₁.accept request (.task s.nextTask) callback)

theorem agenda_schedule (hd : Dispatched cfg s) (request : ScheduleRequest) (callback : Bool) :
    Agenda.Step Raises s.agenda (s.answer (schedule cfg request callback)).agenda := by
  refine answer_of (P := fun s' => Agenda.Step Raises s.agenda s'.agenda) (wp_schedule ?_ ?_ ?_ ?_)
  · intro s₁ e ho _ _ _
    have hready : (acceptReady request callback s₁).2.agenda = s₁.agenda := by
      unfold acceptReady
      show (setCall _ _ (accept _ _ _ (if _ then _ else _))).agenda = _
      split <;> rfl
    show Agenda.Step Raises s.agenda (acceptReady request callback s₁).2.agenda
    rw [hready, ho.agenda]
    exact .same
  · intro s₁ t ho _ hp _
    show Agenda.Step Raises s.agenda (coalesce t request callback s₁).2.agenda
    rw [← ho.agenda]
    refine agenda_coalesce ?_
    rw [ho.same]
    exact (hd.1.pendingKey _ t hp).1
  · rintro s₁ e ho - - - - - s₂ rfl
    show Agenda.Step Raises s.agenda (enqueue request callback _).2.agenda
    rw [agenda_enqueue, ← ho.agenda]
    exact .add _
  · intro s₁ x ho
    show Agenda.Step Raises s.agenda s₁.agenda
    rw [ho.agenda]
    exact .same

/-! ## the workers -/

/-- of an entry in the queue, being live says no more than that its task waits -/
theorem live_listed (hd : Dispatched cfg s) {e : QueueEntry} (he : e ∈ s.queue) :
    e.live s.tasks = true ↔ s.agenda.Live (listed e) := by
  have ht : e.task < s.nextTask := (hd.1.entries (entry e) (List.mem_map_of_mem he)).1
  have hbegun : (s.tasks e.task).completed = true → (s.tasks e.task).started = true := hd.1.begun e.task ht
  unfold QueueEntry.live Agenda.Live
  show _ ↔ (s.tasks e.task).started = false ∧ e.generation = (s.tasks e.task).generation
  cases hc : (s.tasks e.task).completed with
  | false => simp
  | true => simp [hbegun hc]

/-- what a worker does at the top of its loop -/
theorem agenda_pop (hd : Dispatched cfg s) (w : WorkerId) :
    Agenda.Step Raises s.agenda (s.pop w).agenda := by
  unfold pop
  split
  · exact .same
  · cases hp : popLive s.tasks s.queue with
    | none =>
      refine .drain fun x hx => ?_
      obtain ⟨e, he, rfl⟩ := List.mem_map.mp hx
      exact fun hl => popLive_none hp e he ((live_listed hd he).mpr hl)
    | some found =>
      obtain ⟨t, rest⟩ := found
      obtain ⟨before, e, hq, rfl, hlive, hstale⟩ := popLive_some hp
      have hmem : e ∈ s.queue := by rw [hq]; simp
      have hq' : s.agenda.queue = before.map listed ++ listed e :: rest.map listed := by
        show s.queue.map listed = _
        rw [hq, List.map_append]
        rfl
      have hclaim : (s.claim w e.task rest).agenda = { s.agenda with
          queue := rest.map listed
          slots := Function.update s.agenda.slots e.task
            { s.agenda.slots e.task with started := true } } :=
        agenda_setTask e.task { s.tasks e.task with started := true } { s with queue := rest }
      show Agenda.Step Raises s.agenda (s.claim w e.task rest).agenda
      rw [hclaim]
      refine .claim (a := s.agenda) hq' (fun x hx => ?_) ((live_listed hd hmem).mp hlive)
      obtain ⟨y, hy, rfl⟩ := List.mem_map.mp hx
      have hyq : y ∈ s.queue := by rw [hq]; simp [hy]
      exact fun hl => hstale y hy ((live_listed hd hyq).mpr hl)

/-! ## what most steps leave alone -/

/-- only `schedule`, `cancel`, `shutdown` and the top of a worker's loop change it -/
def backlog (s : Scheduler) : Agenda Rank × (TaskId → Bool) := (s.agenda, s.cancelled)

theorem leaves_backlog {α : Type} (x : States.Code α) : Leaves backlog (onStates x) :=
  leaves_onStates (fun _ _ => rfl) x

theorem backlog_goto (w : WorkerId) (pc : WorkerPc) :
    Leaves backlog (update (goto w pc) : Code Unit) := leaves_update fun _ => rfl

theorem backlog_guarded {leave : Scheduler → Scheduler} {w : WorkerId} {t : TaskId} {x : Code Unit}
    (hleave : ∀ s, (leave s).backlog = s.backlog) (h : Leaves backlog x) :
    Leaves backlog (guarded leave w t x) := h.catch fun _ => leaves_update hleave

theorem backlog_count (cfg : SchedulerConfig) (f : PrefetchCounters → PrefetchCounters) (s : Scheduler) :
    (s.count cfg f).backlog = s.backlog := by
  unfold count
  split <;> rfl

theorem backlog_trim (w : WorkerId) (t : TaskId) (r : TransferResult) (cachedBytes : Nat)
    (c : ExpertKey) (rest : List ExpertKey) : Leaves backlog (trim cfg w t r cachedBytes c rest) := by
  refine leaves_read.bind fun s => ?_
  cases s.residentTransfers c with
  | none => exact backlog_goto w _
  | some found =>
    refine leaves_ite _ (backlog_goto w _) (Leaves.bind ?_ fun _ => backlog_goto w _)
    refine Leaves.bind (fun _ => rfl) fun _ => Leaves.bind (fun _ => rfl) fun _ => leaves_read.bind fun s => ?_
    refine Leaves.bind (leaves_ite _ (leaves_backlog _) (leaves_pure ())) fun _ => ?_
    exact leaves_update fun s => backlog_count cfg _ s

/-- past the claim, a worker leaves the backlog alone -/
theorem backlog_work {w : WorkerId} {outcome : TransferOutcome} {pc : WorkerPc} (hpc : pc ≠ .waiting) :
    Leaves backlog (work cfg w outcome pc) := by
  cases pc with
  | waiting => exact absurd rfl hpc
  | popped t =>
    refine leaves_read.bind fun s => leaves_ite _ (backlog_goto w _) ?_
    exact (leaves_ite _ (leaves_pure ()) (leaves_backlog _)).bind fun _ => backlog_goto w _
  | loading t =>
    refine leaves_update fun s => ?_
    unfold awaitTransfer
    split
    · rfl
    · split <;> rfl
  | transferred t r =>
    refine backlog_guarded (fun _ => rfl) (leaves_read.bind fun s => ?_)
    exact (leaves_backlog _).bind fun _ => backlog_goto w _
  | ready t r =>
    refine leaves_update fun s => ?_
    unfold record
    show (if _ then _ else _ : Scheduler).backlog = _
    split <;> rfl
  | trimming t r cachedBytes candidates =>
    cases candidates with
    | nil => exact leaves_update fun _ => rfl
    | cons c rest => exact backlog_guarded (fun _ => rfl) (backlog_trim w t r cachedBytes c rest)
  | recorded t r =>
    refine backlog_guarded (fun _ => rfl) (leaves_read.bind fun s => ?_)
    exact (leaves_backlog _).bind fun _ => backlog_goto w _
  | failing t result =>
    exact leaves_read.bind fun s => (leaves_backlog _).bind fun _ => leaves_update fun _ => rfl
  | failed t result => exact leaves_read.bind fun s => (leaves_backlog _).bind fun _ => backlog_goto w _
  | completing t result =>
    refine leaves_update fun s => ?_
    unfold complete
    split
    · rfl
    · exact Prod.ext (agenda_setTask_same rfl) rfl
  | notifying t result callbacks =>
    refine leaves_update fun s => ?_
    cases callbacks <;> rfl
  | exited => exact leaves_pure ()

theorem backlog_answer {x : Code Reply} (h : Leaves backlog x) : (s.answer x).backlog = s.backlog := by
  have hx := h s
  unfold answer
  cases hr : x.exec s with
  | mk r s' =>
    rw [hr] at hx
    cases r <;> exact hx

theorem backlog_thread {x : Code Unit} (h : Leaves backlog x) : (s.thread x).backlog = s.backlog := by
  have hx := h s
  unfold thread
  cases hr : x.exec s with
  | mk r s' =>
    rw [hr] at hx
    cases r <;> exact hx

theorem backlog_readyResult (n : RequestId) (accepted : Accepted) (call : ReadyCall) :
    Leaves backlog (readyResult n accepted call) := by
  cases call with
  | looking => exact leaves_update fun _ => rfl
  | looked transfer => exact (leaves_backlog _).bind fun _ => leaves_update fun _ => rfl
  | answering result =>
    refine leaves_update fun s => ?_
    show (setCall n _ (if _ then _ else _)).backlog = _
    split <;> rfl
  | answered result => exact leaves_update fun _ => rfl

theorem backlog_expire (layerId : LayerId) (wasted : Nat) (remaining : List ExpertKey) :
    Leaves backlog (expire cfg layerId wasted remaining) := by
  cases remaining with
  | nil =>
    refine leaves_update fun s => ?_
    exact backlog_count cfg _ s
  | cons k rest =>
    refine Leaves.catch (leaves_ite _ ?_ (leaves_update fun _ => rfl)) fun _ => leaves_update fun _ => rfl
    refine Leaves.bind (fun _ => rfl) fun _ => (leaves_backlog _).bind fun _ => ?_
    exact Leaves.bind (fun _ => rfl) fun _ => leaves_update fun _ => rfl

theorem backlog_acknowledge (k : ExpertKey) (location : MemoryTier) :
    Leaves backlog (acknowledgeResidency cfg k location) := by
  refine leaves_read.bind fun s => Leaves.bind ?_ fun _ => Leaves.bind (fun _ => rfl) fun _ => ?_
  · unfold throwIf
    exact leaves_ite _ (fun _ => rfl) (leaves_pure ())
  · refine Leaves.bind (leaves_update fun s => ?_) fun _ => (leaves_backlog _).bind fun _ => leaves_pure _
    split
    · exact backlog_count cfg _ _
    · rfl

theorem step_backlog {a : Action} (h : step cfg a s = some s') (hq : a.request cfg = none)
    (hc : ∀ n, a ≠ .cancel n) (hs : a ≠ .shutdown)
    (hw : ∀ w outcome, a = .work w outcome → s.workers w ≠ .waiting) : s'.backlog = s.backlog := by
  obtain ⟨-, -, rfl⟩ := step_eq h
  have honExpert : ∀ x, (s.answer (onExpert x)).backlog = s.backlog := fun x =>
    backlog_answer ((leaves_backlog x).bind fun _ => leaves_pure _)
  cases a with
  | registerExpert k location => exact honExpert _
  | schedule request callback => cases hq
  | prefetch prediction callback => cases hq
  | readyResult n =>
    dsimp only [perform]
    split
    · exact backlog_thread (backlog_readyResult _ _ _)
    · rfl
  | cancel n => exact absurd rfl (hc n)
  | acquire k => exact honExpert _
  | release k => exact honExpert _
  | expirePrefetchesBefore layerId order => rfl
  | expireNext =>
    dsimp only [perform]
    split
    · exact backlog_thread (backlog_expire _ _ _)
    · rfl
  | cachedTransfer k => rfl
  | acknowledgeResidency k location => exact backlog_answer (backlog_acknowledge k location)
  | reconcileResidency k location =>
    refine backlog_answer (leaves_read.bind fun s => ?_)
    exact (leaves_ite _ (leaves_backlog _) (leaves_pure ())).bind fun _ => leaves_pure _
  | shutdown => exact absurd rfl hs
  | join => rfl
  | work w outcome => exact backlog_thread (backlog_work (hw w outcome rfl))

/-! ## every step -/

/-- a step of the scheduler is a step of its agenda -/
theorem step_agenda {a : Action} (hd : Dispatched cfg s) (h : step cfg a s = some s') :
    Agenda.Step Raises s.agenda s'.agenda := by
  have hsame : ∀ {s' : Scheduler}, s'.agenda = s.agenda → Agenda.Step Raises s.agenda s'.agenda := by
    intro s' h
    rw [h]
    exact .same
  have hrest : a.request cfg = none → (∀ n, a ≠ .cancel n) → a ≠ .shutdown →
      (∀ w outcome, a = .work w outcome → s.workers w ≠ .waiting) →
      Agenda.Step Raises s.agenda s'.agenda :=
    fun hq hc hs hw => hsame (congrArg Prod.fst (step_backlog h hq hc hs hw))
  cases a with
  | schedule request callback =>
    obtain ⟨-, -, rfl⟩ := step_eq h
    exact agenda_schedule hd request callback
  | prefetch prediction callback =>
    obtain ⟨-, -, rfl⟩ := step_eq h
    exact agenda_schedule hd (prefetchRequest cfg prediction) callback
  | cancel n =>
    obtain ⟨-, -, rfl⟩ := step_eq h
    refine hsame ?_
    show (s.cancel n).agenda = _
    unfold cancel
    split <;> rfl
  | shutdown =>
    obtain ⟨-, -, rfl⟩ := step_eq h
    refine hsame ?_
    show (shutdown s).agenda = _
    unfold shutdown
    split <;> rfl
  | work w outcome =>
    by_cases hpc : s.workers w = .waiting
    · obtain ⟨-, -, rfl⟩ := step_eq h
      show Agenda.Step Raises s.agenda (s.thread (work cfg w outcome (s.workers w))).agenda
      rw [hpc]
      exact agenda_pop hd w
    · refine hrest rfl (fun _ => nofun) nofun fun w' outcome' ha => ?_
      obtain ⟨rfl, rfl⟩ := Action.work.inj ha
      exact hpc
  | _ => exact hrest rfl (fun _ => nofun) nofun fun _ _ => nofun

/-! ## runs -/

/-- the numbers under which the tasks were put into the queue last, after the actions `as` from `s`;
`latest` says the same of what came before -/
def latestFrom (cfg : SchedulerConfig) (s : Scheduler) (latest : TaskId → Nat) :
    List Action → TaskId → Nat
  | [] => latest
  | a :: as =>
    match step cfg a s with
    | none => latest
    | some s' => latestFrom cfg s' (Agenda.noted s.agenda s'.agenda latest) as

def latestEnqueue (cfg : SchedulerConfig) (as : List Action) : TaskId → Nat :=
  latestFrom cfg {} (fun _ => 0) as

theorem ordered_new : Agenda.Ordered (agenda {}) fun _ => 0 where
  sorted := List.Pairwise.nil
  numbered _ he := absurd he List.not_mem_nil
  known _ he := absurd he List.not_mem_nil
  current _ he := absurd he List.not_mem_nil
  waits t ht := absurd ht (Nat.not_lt_zero t)

theorem ordered_from {latest : TaskId → Nat} (as : List Action) (hd : Dispatched cfg s)
    (ho : Agenda.Ordered s.agenda latest) (h : Runs.run (step cfg) s as = some s') :
    Agenda.Ordered s'.agenda (latestFrom cfg s latest as) := by
  induction as generalizing s latest with
  | nil =>
    obtain rfl := Option.some.inj h
    exact ho
  | cons a as ih =>
    cases ha : step cfg a s with
    | none =>
      unfold Runs.run at h
      rw [ha] at h
      cases h
    | some s₁ =>
      have hlatest : latestFrom cfg s latest (a :: as) =
          latestFrom cfg s₁ (Agenda.noted s.agenda s₁.agenda latest) as := by
        rw [latestFrom, ha]
      rw [hlatest]
      rw [Runs.run_cons as ha] at h
      exact ih (step_dispatched hd ha) ((step_agenda hd ha).ordered ho) h

theorem run_ordered {as : List Action} (h : run cfg as = some s) :
    Agenda.Ordered s.agenda (latestEnqueue cfg as) := ordered_from as new_dispatched ordered_new h

/-- the worker takes the task out of the queue -/
def Starts (s : Scheduler) (w : WorkerId) (t : TaskId) (s' : Scheduler) : Prop :=
  s.workers w = .waiting ∧ s'.workers w = .popped t

/-- the task was accepted, and no worker has started it -/
def Waits (s : Scheduler) (t : TaskId) : Prop := t < s.nextTask ∧ (s.tasks t).started = false

/-- what the tasks are compared by: priority, score, and who was put into the queue first -/
def standing (cfg : SchedulerConfig) (as : List Action) (s : Scheduler) (t : TaskId) : Rank ×ₗ ℕᵒᵈ :=
  Agenda.standing (rank (s.tasks t)) (latestEnqueue cfg as t)

theorem starts_foremost {as : List Action} {w : WorkerId} {outcome : TransferOutcome} {t : TaskId}
    (h : run cfg as = some s) (hstep : step cfg (.work w outcome) s = some s')
    (hs : Starts s w t s') :
    Waits s t ∧ ∀ t', Waits s t' → t' ≠ t → standing cfg as s t' < standing cfg as s t := by
  have hd := run_dispatched h
  obtain ⟨-, -, rfl⟩ := step_eq hstep
  obtain ⟨hwait, hpop⟩ := hs
  replace hpop : (s.thread (work cfg w outcome (s.workers w))).workers w = .popped t := hpop
  rw [hwait] at hpop
  replace hpop : (s.pop w).workers w = .popped t := hpop
  unfold pop at hpop
  split at hpop
  · rw [goto_workers, Function.update_self] at hpop
    exact nomatch hpop
  · cases hp : popLive s.tasks s.queue with
    | none =>
      rw [hp] at hpop
      replace hpop : Function.update s.workers w (if s.stopping then .exited else .waiting) w =
        .popped t := hpop
      rw [Function.update_self] at hpop
      split at hpop <;> exact nomatch hpop
    | some found =>
      obtain ⟨t₁, rest⟩ := found
      rw [hp] at hpop
      replace hpop : Function.update s.workers w (.popped t₁) w = .popped t := hpop
      rw [Function.update_self] at hpop
      obtain rfl : t₁ = t := WorkerPc.popped.inj hpop
      obtain ⟨before, e, hq, rfl, hlive, hstale⟩ := popLive_some hp
      have hmem : e ∈ s.queue := by rw [hq]; simp
      have hl := (live_listed hd hmem).mp hlive
      have hq' : s.agenda.queue = before.map listed ++ listed e :: rest.map listed := by
        show s.queue.map listed = _
        rw [hq, List.map_append]
        rfl
      have hstale' : ∀ x ∈ before.map listed, ¬ s.agenda.Live x := by
        intro x hx
        obtain ⟨y, hy, rfl⟩ := List.mem_map.mp hx
        have hyq : y ∈ s.queue := by rw [hq]; simp [hy]
        exact fun hly => hstale y hy ((live_listed hd hyq).mpr hly)
      have ho := run_ordered h
      have hknown : e.task < s.nextTask := (ho.known _ (List.mem_map_of_mem hmem)).1
      exact ⟨⟨hknown, hl.1⟩, fun t' ht' hne => ho.foremost hq' hstale' hl ht'.1 ht'.2 hne⟩

/-- a task never loses priority or score, and once started keeps both -/
def Held (s s' : Scheduler) (t : TaskId) : Prop :=
  t < s'.nextTask ∧ Raises (rank (s.tasks t)) (rank (s'.tasks t)) ∧
    ((s.tasks t).started = true →
      (s'.tasks t).started = true ∧ rank (s'.tasks t) = rank (s.tasks t))

theorem Raises.refl (r : Rank) : Raises r r := ⟨le_refl _, le_refl _⟩

theorem Raises.trans {r r' r'' : Rank} (h : Raises r r') (h' : Raises r' r'') : Raises r r'' :=
  ⟨h.1.trans h'.1, h.2.trans h'.2⟩

theorem step_held {a : Action} (hd : Dispatched cfg s) (h : step cfg a s = some s') {t : TaskId}
    (ht : t < s.nextTask) : Held s s' t := by
  obtain ⟨hnext, hstarted, hr⟩ := (step_agenda hd h).slot (t := t) ht
  refine ⟨hnext, ?_, hstarted⟩
  rcases hr with hr | hr
  · exact (show rank (s'.tasks t) = rank (s.tasks t) from hr) ▸ .refl _
  · exact hr

theorem run_held (as : List Action) (hd : Dispatched cfg s) (h : Runs.run (step cfg) s as = some s')
    {t : TaskId} (ht : t < s.nextTask) : Held s s' t := by
  have hkeeps : ∀ s₁ a s₂, step cfg a s₁ = some s₂ → Dispatched cfg s₁ ∧ Held s s₁ t →
      Dispatched cfg s₂ ∧ Held s s₂ t := by
    rintro s₁ a s₂ ha ⟨hd₁, hnext, hraise, hkeep⟩
    obtain ⟨hnext', hraise', hkeep'⟩ := step_held hd₁ ha hnext
    refine ⟨step_dispatched hd₁ ha, hnext', hraise.trans hraise', fun hs => ?_⟩
    obtain ⟨hs₁, hr₁⟩ := hkeep hs
    obtain ⟨hs₂, hr₂⟩ := hkeep' hs₁
    exact ⟨hs₂, hr₂.trans hr₁⟩
  have hinit : Dispatched cfg s ∧ Held s s t := ⟨hd, ht, .refl _, fun hs => ⟨hs, rfl⟩⟩
  exact (Runs.run_invariant hkeeps hinit h).2

/-! ## the dispatch order -/

/-- In every run a worker starts the task that comes first, by what the tasks stand at then; and a
task never loses priority or score, and once started keeps both. -/
theorem dispatch_order {as : List Action} (h : run cfg as = some s) :
    (∀ w outcome t s', step cfg (.work w outcome) s = some s' → Starts s w t s' →
      Waits s t ∧ ∀ t', Waits s t' → t' ≠ t → standing cfg as s t' < standing cfg as s t) ∧
    ∀ bs s', Runs.run (step cfg) s bs = some s' → ∀ t < s.nextTask, Held s s' t :=
  ⟨fun _ _ _ _ hstep hs => starts_foremost h hstep hs,
    fun bs _ hrun _ ht => run_held bs (run_dispatched h) hrun ht⟩

/-- a prefetch, a request behind it, and an active request that overtakes both with the latter's task -/
def overtakingRun : List Action :=
  [.registerExpert (0, 0) .Nvme, .registerExpert (0, 1) .Nvme, .prefetch ⟨0, 0, 1, 1⟩ false,
    .schedule { expertId := 1, priority := .CacheWarming } false, .schedule { expertId := 1 } false]

theorem dispatch_order_overtaking : ∃ s, run {} overtakingRun = some s ∧
    (step {} (.work 0 (.error .outOfFuel)) s).map (fun s => s.workers 0) = some (.popped 1) ∧
    (∀ w outcome t s', step {} (.work w outcome) s = some s' → Starts s w t s' →
      Waits s t ∧ ∀ t', Waits s t' → t' ≠ t →
        standing {} overtakingRun s t' < standing {} overtakingRun s t) ∧
    ∀ bs s', Runs.run (step {}) s bs = some s' → ∀ t < s.nextTask, Held s s' t := by
  have hstarts : ((run {} overtakingRun).bind (step {} (.work 0 (.error .outOfFuel)))).map
      (fun s => s.workers 0) = some (.popped 1) := by decide +kernel
  cases h : run {} overtakingRun with
  | none =>
    rw [h] at hstarts
    exact nomatch hstarts
  | some s =>
    rw [h] at hstarts
    exact ⟨s, rfl, hstarts, dispatch_order h⟩

end HyperMoE.Scheduler
