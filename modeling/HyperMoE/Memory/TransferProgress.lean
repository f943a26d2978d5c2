import HyperMoE.Memory.TransferInvariants

/-!
# No transfer is left behind

A promise that a worker never comes to would never be resolved.  Three facts exclude this: no worker
is stuck before every promise is resolved, a worker that has a task comes nearer to its promise with
each step of its own, and the workers alone can only make so many steps.

* `Stuck`                  no worker can make a step;
* `Inv.resolved_of_stuck`, `Inv.join_of_stuck`   then every promise is resolved, and `shutdown`
                           returns;
* `work_isSome`            a worker that has a task can go on;
* `Stage.left`, `step_turn`   what it has still to do gets less with its own steps;
* `step_elsewhere`            and stays the same with everybody else's;
* `owed`, `length_le_owed`    what all workers have to do bounds the steps that they can make.
-/

namespace HyperMoE.Memory

open Lib

variable {env : Environment} {answers : Answers}

/-- the steps of a worker before it leaves, if it takes nothing more -/
def Stage.left : Stage → Nat
  | .exited => 0
  | .waiting => 1
  | .delivering _ _ => 2
  | .calling _ _ => 3
  | .ordering _ _ => 4
  | .transferred _ _ => 5
  | .transferring _ _ => 6
  | .loaded _ _ => 7
  | .loading _ => 8
  | .popped _ => 9

theorem Stage.ofLoad_left (t : Task) (x : Except Exn Loaded) : (Stage.ofLoad t x).left ≤ 7 := by
  cases x <;> simp [Stage.ofLoad, Stage.left]

theorem Stage.ofTransfer_left (t : Task) (l : Loaded) (o : Outcome) :
    (Stage.ofTransfer t l o).left ≤ 5 := by
  unfold Stage.ofTransfer
  cases o with
  | error e => exact (by decide : 2 ≤ 5)
  | ok r =>
    dsimp only
    split
    · exact (by decide : 4 ≤ 5)
    · exact (by decide : 5 ≤ 5)

/-- whatever the flag and the answers are, the next stage is nearer to the promise -/
theorem Stage.advance_left {stage : Stage} (htask : stage.task.isSome = true)
    (hne : ∀ t o, stage ≠ .delivering t o) (cancelled : Bool) (order : Nat) (streams : Streams) :
    (stage.advance env answers cancelled order streams).1.left < stage.left := by
  cases stage with
  | waiting => cases htask
  | exited => cases htask
  | popped t => cases cancelled <;> simp [Stage.advance, Stage.left]
  | loading t => exact Nat.lt_succ_of_le (Stage.ofLoad_left t _)
  | loaded t l => cases cancelled <;> simp [Stage.advance, Stage.left]
  | transferring t l => exact Nat.lt_succ_of_le (Stage.ofTransfer_left t l _)
  | transferred t r => cases cancelled <;> simp [Stage.advance, Stage.left]
  | ordering t r => exact Nat.lt_succ_self 3
  | calling t r => exact Nat.lt_succ_self 2
  | delivering t o => exact absurd rfl (hne t o)

namespace TransferManager

variable {s s' : TransferManager}

/-- the worker whose thread makes the step -/
def Action.worker : Action → Option Nat
  | .take w => some w
  | .work w _ => some w
  | .exit w => some w
  | _ => none

/-- no worker can make a step, whatever it is answered -/
def Stuck (env : Environment) (s : TransferManager) : Prop :=
  ∀ a : Action, a.worker.isSome = true → step env a s = none

/-- the task that the worker has -/
def taskOf (s : TransferManager) (w : Nat) : Option Task := s.workers[w]?.bind Stage.task

/-- what the worker has still to do -/
def left (s : TransferManager) (w : Nat) : Nat := (s.workers[w]?.map Stage.left).getD 0

/-- what all workers have still to do, if nothing more is submitted -/
def owed (s : TransferManager) : Nat := 9 * s.queue.length + (s.workers.map Stage.left).sum

/-! ## who is stuck -/

/-- a worker that has a task can make its next step -/
theorem work_isSome {w : Nat} {t : Task} (h : s.taskOf w = some t) (answers : Answers) :
    (s.work env w answers).isSome = true := by
  unfold taskOf at h
  unfold work
  cases hw : s.workers[w]? with
  | none =>
    rw [hw] at h
    cases h
  | some stage =>
    rw [hw] at h
    cases stage with
    | waiting => cases h
    | exited => cases h
    | _ => rfl

/-- a worker that waits can take a task, if there is one -/
theorem take_isSome {w : Nat} (hw : s.workers[w]? = some .waiting) (hq : s.queue ≠ []) :
    (s.take w).isSome = true := by
  obtain ⟨t, ht⟩ : ∃ t, best higherPriority s.queue = some t := best_isSome hq
  unfold take
  rw [hw, ht]
  rfl

theorem exit_isSome {w : Nat} (hw : s.workers[w]? = some .waiting) (hs : s.stopping = true)
    (hq : s.queue = []) : (s.exit w).isSome = true := by
  unfold exit
  rw [hw]
  dsimp only
  rw [if_pos ⟨hs, hq⟩]
  rfl

theorem Stuck.none_of {a : Action} (h : Stuck env s) (ha : a.worker.isSome = true) :
    ¬ (step env a s).isSome = true := by
  rw [h a ha]
  exact Bool.false_ne_true

/-- a worker that cannot go on has no task -/
theorem Stuck.idle (h : Stuck env s) {stage : Stage} (hmem : stage ∈ s.workers) :
    stage = .waiting ∨ stage = .exited := by
  obtain ⟨w, hw⟩ := List.mem_iff_getElem?.mp hmem
  have hno : ∀ t, stage.task ≠ some t := fun t ht =>
    h.none_of (a := .work w {}) rfl (work_isSome (by unfold taskOf; rw [hw]; exact ht) {})
  cases stage with
  | waiting => exact .inl rfl
  | exited => exact .inr rfl
  | _ => exact absurd rfl (hno _)

/-- and nothing waits in the queue, for the first worker would take it -/
theorem Stuck.queue_nil (h : Stuck env s) (hinv : Inv env s) : s.queue = [] := by
  obtain ⟨stage, hmem⟩ := List.exists_mem_of_ne_nil _ hinv.crew
  rcases h.idle hmem with rfl | rfl
  · obtain ⟨w, hw⟩ := List.mem_iff_getElem?.mp hmem
    by_contra hq
    exact h.none_of (a := .take w) rfl (take_isSome hw hq)
  · exact (hinv.exited hmem).2

theorem Inv.resolved_of_stuck (hinv : Inv env s) (h : Stuck env s) :
    (s.resolved.map Prod.fst).Perm (List.range s.accepted.length) := by
  refine hinv.conserved.all_finished ?_ ?_
  · show s.queue.map Task.sequence = []
    rw [h.queue_nil hinv]
    rfl
  · refine List.filterMap_eq_nil_iff.mpr fun stage hmem => ?_
    rcases h.idle hmem with rfl | rfl <;> rfl

/-- when a stopped manager's workers are stuck, they have left, and `shutdown` can return -/
theorem Inv.join_of_stuck (hinv : Inv env s) (h : Stuck env s) (hs : s.stopping = true) {call : Nat}
    (hcall : s.shutdowns[call]? = some .joining) : (s.join call).isSome = true := by
  have hexited : ∀ stage ∈ s.workers, stage = .exited := by
    intro stage hmem
    rcases h.idle hmem with rfl | rfl
    · obtain ⟨w, hw⟩ := List.mem_iff_getElem?.mp hmem
      exact absurd (exit_isSome hw hs (h.queue_nil hinv)) (h.none_of (a := .exit w) rfl)
    · rfl
  unfold join
  split
  · rfl
  · next hno =>
    refine absurd ⟨hcall, List.all_eq_true.mpr fun stage hmem => ?_⟩ hno
    rw [hexited stage hmem]

/-! ## what a worker has still to do -/

/-- what a step of the worker `w` does: the worker comes nearer to its end, and its task stays with
it, or is resolved -/
structure Turn (s s' : TransferManager) (w : Nat) (stage stage' : Stage) : Prop where
  stood : s.workers[w]? = some stage
  stands : s'.workers = s.workers.set w stage'
  lowers : 9 * s'.queue.length + stage'.left < 9 * s.queue.length + stage.left
  nearer : ∀ t, stage.task = some t → stage'.left < stage.left ∧
    (stage'.task = some t ∨ ∃ o, s'.resolved = (t.sequence, o) :: s.resolved)

theorem take_turn {w : Nat} (h : s.take w = some s') :
    ∃ stage stage', Turn s s' w stage stage' := by
  unfold take at h
  split at h
  · next t hw hbest =>
    obtain rfl := Option.some.inj h
    refine ⟨.waiting, .popped t, hw, rfl, ?_, fun t ht => nomatch ht⟩
    have hmem := best_mem hbest
    have hpos := List.length_pos_of_mem hmem
    show 9 * (s.queue.erase t).length + 9 < 9 * s.queue.length + 1
    rw [List.length_erase_of_mem hmem]
    omega
  · cases h

theorem work_turn {w : Nat} (h : s.work env w answers = some s') :
    ∃ stage stage', Turn s s' w stage stage' := by
  unfold work at h
  cases hw : s.workers[w]? with
  | none =>
    rw [hw] at h
    cases h
  | some stage =>
    rw [hw] at h
    have hstep : ∀ {stage' : Stage}, stage.task.isSome = true → (∀ t o, stage ≠ .delivering t o) →
        stage' = (stage.advance env answers (s.flag stage) s.nextCompletion s.streams).1 →
        s'.workers = s.workers.set w stage' → s'.queue = s.queue →
        ∃ stage stage', Turn s s' w stage stage' := by
      rintro stage' htask hne rfl hworkers hqueue
      have hless : (stage.advance env answers (s.flag stage) s.nextCompletion s.streams).1.left <
          stage.left := Stage.advance_left htask hne ..
      refine ⟨stage, _, hw, hworkers, ?_, fun t ht => ⟨hless, .inl ?_⟩⟩
      · rw [hqueue]
        exact Nat.add_lt_add_left hless _
      · rw [Stage.advance_task]
        exact ht
    cases stage with
    | waiting => cases h
    | exited => cases h
    | delivering t o =>
      obtain rfl := Option.some.inj h
      refine ⟨.delivering t o, .waiting, hw, rfl, Nat.lt_succ_self _, fun u hu => ?_⟩
      obtain rfl := Option.some.inj hu
      exact ⟨Nat.lt_succ_self 1, .inr ⟨o, rfl⟩⟩
    | _ =>
      obtain rfl := Option.some.inj h
      exact hstep rfl (fun t o => nofun) rfl rfl rfl

theorem exit_turn {w : Nat} (h : s.exit w = some s') : ∃ stage stage', Turn s s' w stage stage' := by
  unfold exit at h
  split at h
  · next hw =>
    split at h
    · obtain rfl := Option.some.inj h
      exact ⟨.waiting, .exited, hw, rfl, Nat.lt_succ_self _, fun t ht => nomatch ht⟩
    · cases h
  · cases h

theorem step_turn {a : Action} {w : Nat} (h : step env a s = some s') (ha : a.worker = some w) :
    ∃ stage stage', Turn s s' w stage stage' := by
  cases a with
  | take v =>
    obtain rfl := Option.some.inj ha
    exact take_turn h
  | work v answers =>
    obtain rfl := Option.some.inj ha
    exact work_turn h
  | exit v =>
    obtain rfl := Option.some.inj ha
    exact exit_turn h
  | _ => cases ha

/-- a client moves no worker -/
theorem step_client {a : Action} (h : step env a s = some s') (ha : a.worker = none) :
    s'.workers = s.workers := by
  cases a with
  | take w => cases ha
  | work w answers => cases ha
  | exit w => cases ha
  | submit r =>
    rcases step_submit h with rfl | ⟨-, rfl⟩
    · rfl
    · rfl
  | cancel n =>
    unfold step at h
    dsimp only at h
    split at h
    · obtain rfl := Option.some.inj h
      rfl
    · cases h
  | shutdown =>
    obtain rfl := Option.some.inj h
    unfold shutdown
    split <;> rfl
  | join call =>
    replace h : s.join call = some s' := h
    unfold join at h
    split at h
    · obtain rfl := Option.some.inj h
      rfl
    · cases h

theorem step_elsewhere {a : Action} {w : Nat} (h : step env a s = some s') (ha : a.worker ≠ some w) :
    s'.workers[w]? = s.workers[w]? := by
  cases hv : a.worker with
  | none => rw [step_client h hv]
  | some v =>
    obtain ⟨stage, stage', turn⟩ := step_turn h hv
    rw [turn.stands, List.getElem?_set_ne]
    rintro rfl
    exact ha hv

theorem step_nearer {a : Action} {w : Nat} {t : Task} (h : step env a s = some s')
    (ha : a.worker = some w) (ht : s.taskOf w = some t) : s'.left w < s.left w ∧
      (s'.taskOf w = some t ∨ ∃ o, s'.resolved = (t.sequence, o) :: s.resolved) := by
  obtain ⟨stage, stage', turn⟩ := step_turn h ha
  have hlt : w < s.workers.length := (List.getElem?_eq_some_iff.mp turn.stood).1
  have hstands : s'.workers[w]? = some stage' := by
    rw [turn.stands, List.getElem?_set_self hlt]
  unfold taskOf left at *
  rw [hstands]
  rw [turn.stood] at ht ⊢
  exact turn.nearer t ht

/-! ## what all of them have -/

theorem step_owed {a : Action} (h : step env a s = some s') (ha : a.worker.isSome = true) :
    s'.owed < s.owed := by
  obtain ⟨w, hw⟩ := Option.isSome_iff_exists.mp ha
  obtain ⟨stage, stage', turn⟩ := step_turn h hw
  have hsum := sum_map_set Stage.left stage' turn.stood
  have hlowers := turn.lowers
  unfold owed
  rw [turn.stands]
  omega

/-- the workers alone come to an end -/
theorem length_le_owed {as : List Action} (hworkers : ∀ a ∈ as, a.worker.isSome = true)
    (hrun : run env s as = some s') : as.length ≤ s.owed := by
  have hlowers : ∀ (s : TransferManager) (a : Action) (s' : TransferManager),
      step env a s = some s' → a.worker.isSome = true → s'.owed < s.owed :=
    fun _ _ _ h ha => step_owed h ha
  have hbound := Runs.length_le_of_lowers hlowers as s s' hworkers hrun
  omega

end TransferManager

end HyperMoE.Memory
