import HyperMoE.Scheduler.Changes

/-!
# The record of an expert agrees with its task

`Tracked` holds in every reachable state, so no worker ever finds an expert in a state from which
the state machine refuses the next transition of its own task, and no exception ends a thread.

* `Tracked.setState`, `Tracked.advance`   the two ways in which a record changes: nobody is at work
                                          on the expert, or the worker that holds its task goes on;
* `Change.tracked`                        every change keeps `Tracked`;
* `Sound`, `run_sound`                    it holds in every reachable state, and no thread has ended
                                          by an exception.
-/

namespace HyperMoE.Scheduler

open Lib

variable {cfg : SchedulerConfig} {s s' : Scheduler} {c : Core}

/-! ## records -/

/-- no transfer of the expert is waiting or under way -/
def parked (x : ExpertLifecycleState) : Prop := x ≠ .Queued ∧ x ≠ .Loading ∧ x ≠ .Evicting

theorem idle_of_usable {x : ExpertLifecycleState} (h : usable x) : idle x := by
  rcases h with h | h
  · exact .inl h
  · exact .inr (.inl h)

theorem parked_of_reconcilable {x : ExpertLifecycleState} (h : reconcilable x) : parked x :=
  ⟨h.2.2.1, h.2.1, h.2.2.2⟩

theorem not_parked_waiting {eviction : Bool} : ¬ parked (waiting eviction) := by
  unfold parked waiting
  cases eviction <;> simp

theorem not_parked_moving {eviction : Bool} : ¬ parked (moving eviction) := by
  unfold parked moving
  cases eviction <;> simp

/-- where a worker allows one parked record, it allows every usable one -/
theorem agrees_usable {eviction : Bool} {x y : ExpertLifecycleState} {pc : WorkerPc}
    (h : Agrees eviction x pc) (hx : parked x) (hy : usable y) : Agrees eviction y pc := by
  cases pc with
  | popped t =>
    have h' : x = waiting eviction := h
    exact absurd (h' ▸ hx) not_parked_waiting
  | loading t =>
    have h' : x = moving eviction := h
    exact absurd (h' ▸ hx) not_parked_moving
  | transferred t r =>
    have h' : x = moving eviction := h
    exact absurd (h' ▸ hx) not_parked_moving
  | failing t result =>
    refine ⟨h.1, ?_⟩
    rcases hy with hy | hy <;> rw [hy] <;> simp
  | failed t result => exact ⟨h.1, idle_of_usable hy⟩
  | completing t result => exact idle_of_usable hy
  | ready t r => exact hy
  | trimming t r n candidates => exact hy
  | recorded t r => exact hy
  | waiting => trivial
  | notifying t result callbacks => trivial
  | exited => trivial

/-! ## the lock -/

namespace Locks

variable {lock lock' : Option Holder} {workers : WorkerId → WorkerPc} {w : WorkerId} {pc : WorkerPc}

/-- a worker goes on, inside its loop or outside of it -/
theorem step (h : Locks lock workers) (hw : trims pc = trims (workers w)) :
    Locks lock (Function.update workers w pc) := by
  intro w'
  rw [h w', Function.update_apply]
  split
  · next e => rw [e, hw]
  · rfl

theorem take (h : Locks none workers) (hpc : trims pc = true) :
    Locks (some (.worker w)) (Function.update workers w pc) := by
  intro w'
  rw [Function.update_apply]
  split
  · next e => simp [e, hpc]
  · next e =>
    have hno : trims (workers w') ≠ true := fun ht => by cases (h w').mpr ht
    simp [hno, Ne.symm e]

theorem leave (h : Locks lock workers) (hw : trims (workers w) = true) (hpc : trims pc = false) :
    Locks none (Function.update workers w pc) := by
  intro w'
  rw [Function.update_apply]
  split
  · simp [hpc]
  · next e =>
    have hno : trims (workers w') ≠ true := by
      intro ht
      have hh := ((h w').mpr ht).symm.trans ((h w).mpr hw)
      exact e (Holder.worker.inj (Option.some.inj hh))
    simp [hno]

/-- the lock changes hands outside of the workers -/
theorem outside (h : Locks lock workers) (hl : ∀ w, lock ≠ some (.worker w))
    (hl' : ∀ w, lock' ≠ some (.worker w)) : Locks lock' workers :=
  fun w => ⟨fun hw => absurd hw (hl' w), fun hw => absurd ((h w).mpr hw) (hl w)⟩

end Locks

namespace Tracked

/-- nobody is at work on the expert -/
theorem setState (hT : Tracked c) {k : ExpertKey} {e : ExpertState} (e' : ExpertState)
    (he : c.states k = some e) (hx : parked e.state) (hy : usable e'.state) :
    Tracked { c with states := c.states.set k e' } := by
  have hget : ∀ {k' : ExpertKey} {e₁ : ExpertState}, c.states.set k e' k' = some e₁ →
      (k' = k ∧ e₁ = e') ∨ c.states k' = some e₁ := by
    intro k' e₁ h
    rw [States.set_apply] at h
    split at h
    · next hk => exact .inl ⟨hk, (Option.some.inj h).symm⟩
    · exact .inr h
  have hsome : ∀ k', (∃ e₁, c.states k' = some e₁) → ∃ e₁, c.states.set k e' k' = some e₁ := by
    intro k' h
    by_cases hk : k' = k
    · exact ⟨e', by rw [hk, States.set_self]⟩
    · obtain ⟨e₁, h⟩ := h
      exact ⟨e₁, by rw [States.set_of_ne hk, h]⟩
  refine { hT with pending := ?_, accepted := ?_, rest := ?_, waits := ?_, held := ?_ }
  · intro k' t hp
    exact hsome k' (hT.pending k' t hp)
  · intro n a ha
    exact hsome _ (hT.accepted n a ha)
  · intro k' e₁ h hp
    rcases hget h with ⟨rfl, rfl⟩ | h
    · exact idle_of_usable hy
    · exact hT.rest k' e₁ h hp
  · intro k' t e₁ hp h hfree
    rcases hget h with ⟨rfl, rfl⟩ | h
    · exact absurd (hT.waits k' t e hp he hfree ▸ hx) not_parked_waiting
    · exact hT.waits k' t e₁ hp h hfree
  · intro w t e₁ hw h
    rcases hget h with ⟨hk, rfl⟩ | h
    · exact agrees_usable (hT.held w t e hw (hk ▸ he)) hx hy
    · exact hT.held w t e₁ hw h

/-- the worker that holds a task goes on, and with it the record of the task's expert -/
theorem advance (hd : Dispatched cfg s) (hT : Tracked s.core) {w : WorkerId} {t : TaskId}
    {states : States} {e : ExpertState} {lock : Option Holder} (pc : WorkerPc)
    (hw : stage (s.workers w) = .holds t) (hpc : stage pc = .holds t)
    (hs : ∀ k, k ≠ (s.tasks t).key → states k = s.states k)
    (he : states (s.tasks t).key = some e)
    (hagrees : Agrees (s.tasks t).request.eviction e.state pc)
    (hl : Locks lock (Function.update s.workers w pc))
    (resident : ExpertKey → Option TransferResult) (history : List Event) :
    Tracked { s.core with
      states := states
      workers := Function.update s.workers w pc
      lock := lock
      residentTransfers := resident
      history := history } := by
  obtain ⟨hpending, -⟩ := held_task hd hT hw
  have hsome : ∀ k, (∃ e₁, s.states k = some e₁) → ∃ e₁, states k = some e₁ := by
    intro k h
    by_cases hk : k = (s.tasks t).key
    · exact ⟨e, hk ▸ he⟩
    · rw [hs k hk]
      exact h
  -- the worker still has its task, so every task is with whom it was
  have htask : ∀ w', (stage (Function.update s.workers w pc w')).task =
      (stage (s.workers w')).task := by
    intro w'
    rw [Function.update_apply]
    split
    · next e => rw [e, hpc, hw]
    · rfl
  refine { hT with pending := ?_, accepted := ?_, rest := ?_, waits := ?_, held := ?_, locked := hl }
  · intro k t' hp
    exact hsome k (hT.pending k t' hp)
  · intro n a ha
    exact hsome _ (hT.accepted n a ha)
  · intro k e₁ h hp
    have hk : k ≠ (s.tasks t).key := by
      rintro rfl
      exact absurd (hp.symm.trans hpending) (by simp)
    exact hT.rest k e₁ ((hs k hk).symm.trans h) hp
  · intro k t' e₁ hp h hfree
    have hk : k ≠ (s.tasks t).key := by
      rintro rfl
      have htt : t' = t := Option.some.inj (hp.symm.trans hpending)
      have hw' := hfree w
      rw [htask w, hw, htt] at hw'
      exact hw' rfl
    exact hT.waits k t' e₁ hp ((hs k hk).symm.trans h) fun w' => htask w' ▸ hfree w'
  · intro w' t' e₁ hw' h
    by_cases e' : w' = w
    · subst e'
      replace hw' : stage (Function.update s.workers w' pc w') = .holds t' := hw'
      rw [Function.update_self, hpc] at hw'
      obtain rfl := Dispatch.Stage.holds.inj hw'
      obtain rfl := Option.some.inj (he.symm.trans h)
      show Agrees _ _ (Function.update s.workers w' pc w')
      rw [Function.update_self]
      exact hagrees
    · have hold : Function.update s.workers w pc w' = s.workers w' := Function.update_of_ne e' ..
      replace hw' : stage (Function.update s.workers w pc w') = .holds t' := hw'
      rw [hold] at hw'
      have hne : t' ≠ t := by
        have hwt : (s.view.workers w).task = some t := congrArg Dispatch.Stage.task hw
        have hwt' : (s.view.workers w').task = some t' := congrArg Dispatch.Stage.task hw'
        exact hd.1.task_ne hwt hwt' e'
      have hk : (s.tasks t').key ≠ (s.tasks t).key := by
        intro hk
        obtain ⟨hp', -⟩ := held_task hd hT hw'
        rw [hk] at hp'
        exact hne (Option.some.inj (hp'.symm.trans hpending))
      show Agrees _ _ (Function.update s.workers w pc w')
      rw [hold]
      exact hT.held w' t' e₁ hw' ((hs _ hk).symm.trans h)

/-- the same where the record is written -/
theorem write (hd : Dispatched cfg s) (hT : Tracked s.core) {w : WorkerId} {t : TaskId}
    {lock : Option Holder} (pc : WorkerPc) (e : ExpertState)
    (hw : stage (s.workers w) = .holds t) (hpc : stage pc = .holds t)
    (hagrees : Agrees (s.tasks t).request.eviction e.state pc)
    (hl : Locks lock (Function.update s.workers w pc))
    (history : List Event) :
    Tracked { s.core with
      states := s.states.set (s.tasks t).key e
      workers := Function.update s.workers w pc
      lock := lock
      history := history } :=
  hT.advance hd pc hw hpc (fun _ hk => States.set_of_ne hk e _) (States.set_self ..) hagrees hl
    s.residentTransfers history

/-- the same where the record stays as it is -/
theorem goOn (hd : Dispatched cfg s) (hT : Tracked s.core) {w : WorkerId} {t : TaskId}
    {lock : Option Holder} (pc : WorkerPc) (hw : stage (s.workers w) = .holds t)
    (hpc : stage pc = .holds t)
    (ha : ∀ x, Agrees (s.tasks t).request.eviction x (s.workers w) →
      Agrees (s.tasks t).request.eviction x pc)
    (hl : Locks lock (Function.update s.workers w pc))
    (resident : ExpertKey → Option TransferResult) (history : List Event) :
    Tracked { s.core with
      workers := Function.update s.workers w pc
      lock := lock
      residentTransfers := resident
      history := history } := by
  obtain ⟨-, e, he, hagrees⟩ := held_task hd hT hw
  exact hT.advance hd pc hw hpc (fun _ _ => rfl) he (ha _ hagrees) hl resident history

/-- a worker without a task goes on without one -/
theorem rests (hd : Dispatched cfg s) (hT : Tracked s.core) {w : WorkerId} {pc : WorkerPc}
    (hw : ∀ t, stage (s.workers w) ≠ .holds t) (hpc : ∀ t, stage pc ≠ .holds t)
    (history : List Event) :
    Tracked { s.core with workers := Function.update s.workers w pc, history := history } := by
  refine { hT with waits := ?_, held := ?_, locked := ?_ }
  · intro k t e hp he hfree
    refine hT.waits k t e hp he fun w' hw' => ?_
    by_cases e' : w' = w
    · -- the worker has delivered the task, which is not pending any more
      subst e'
      have hc : (s.tasks t).completed = false := (hd.1.pendingKey k t hp).2.2
      replace hw' : (stage (s.workers w')).task = some t := hw'
      cases hst : stage (s.workers w') with
      | idle => rw [hst] at hw'; cases hw'
      | exited => rw [hst] at hw'; cases hw'
      | holds t' => exact hw t' hst
      | delivers t' r rest =>
        rw [hst] at hw'
        obtain rfl := Option.some.inj hw'
        exact absurd (hc.symm.trans (hd.1.delivers w' t' r rest hst).2) (by simp)
    · refine hfree w' ?_
      show (stage (Function.update s.workers w pc w')).task = some t
      rw [Function.update_of_ne e']
      exact hw'
  · intro w' t e hw' he
    have hne : w' ≠ w := by
      rintro rfl
      replace hw' : stage (Function.update s.workers w' pc w') = .holds t := hw'
      rw [Function.update_self] at hw'
      exact hpc t hw'
    have hold : Function.update s.workers w pc w' = s.workers w' := Function.update_of_ne hne ..
    replace hw' : stage (Function.update s.workers w pc w') = .holds t := hw'
    show Agrees _ _ (Function.update s.workers w pc w')
    rw [hold] at hw' ⊢
    exact hT.held w' t e hw' he
  · have hnot : ∀ x : WorkerPc, (∀ t, stage x ≠ .holds t) → trims x = false := by
      intro x hx
      cases x with
      | trimming t r n candidates => exact absurd rfl (hx t)
      | _ => rfl
    exact hT.locked.step ((hnot pc hpc).trans (hnot _ hw).symm)

theorem claim (hT : Tracked s.core) {w : WorkerId} {t : TaskId}
    (hw : s.workers w = .waiting) (hp : s.pendingByExpert (s.tasks t).key = some t)
    (hf : ∀ w, (stage (s.workers w)).task ≠ some t) :
    Tracked { s.core with workers := Function.update s.workers w (.popped t) } := by
  refine { hT with waits := ?_, held := ?_, locked := ?_ }
  · intro k t' e hp' he hfree
    refine hT.waits k t' e hp' he fun w' hw' => ?_
    have hne : w' ≠ w := by
      rintro rfl
      replace hw' : (stage (s.workers w')).task = some t' := hw'
      rw [hw] at hw'
      cases hw'
    refine hfree w' ?_
    show (stage (Function.update s.workers w (.popped t) w')).task = some t'
    rw [Function.update_of_ne hne]
    exact hw'
  · intro w' t' e hw' he
    replace hw' : stage (Function.update s.workers w (.popped t) w') = .holds t' := hw'
    show Agrees _ _ (Function.update s.workers w (.popped t) w')
    rw [Function.update_apply] at hw' ⊢
    split at hw'
    · next e' =>
      rw [if_pos e']
      obtain rfl := Dispatch.Stage.holds.inj hw'
      exact hT.waits _ t e hp he hf
    · next e' =>
      rw [if_neg e']
      exact hT.held w' t' e hw' he
  · exact hT.locked.step (by show _ = trims (s.workers w); rw [hw]; rfl)

theorem completes (hd : Dispatched cfg s) (hT : Tracked s.core) {w : WorkerId} {t : TaskId}
    {result : ScheduleResult} (hw : s.workers w = .completing t result)
    (callbacks : List RequestId) :
    Tracked { s.core with
      pendingByExpert := Function.update s.pendingByExpert (s.tasks t).key none
      workers := Function.update s.workers w (.notifying t result callbacks) } := by
  have hholds : stage (s.workers w) = .holds t := by rw [hw]; rfl
  obtain ⟨-, e, he, hagrees⟩ := held_task hd hT hholds
  have hidle : idle e.state := by
    rw [hw] at hagrees
    exact hagrees
  have hpending : ∀ {k : ExpertKey} {t' : TaskId},
      Function.update s.pendingByExpert (s.tasks t).key none k = some t' →
      k ≠ (s.tasks t).key ∧ s.pendingByExpert k = some t' := by
    intro k t' h
    rw [Function.update_apply] at h
    split at h
    · cases h
    · next hk => exact ⟨hk, h⟩
  have htask : ∀ w', (stage (Function.update s.workers w (.notifying t result callbacks) w')).task =
      (stage (s.workers w')).task := by
    intro w'
    rw [Function.update_apply]
    split
    · next e => rw [e, hw]; rfl
    · rfl
  refine { hT with pending := ?_, rest := ?_, waits := ?_, held := ?_, locked := ?_ }
  · intro k t' hp
    exact hT.pending k t' (hpending hp).2
  · intro k e₁ h hp
    by_cases hk : k = (s.tasks t).key
    · subst hk
      obtain rfl := Option.some.inj (he.symm.trans h)
      exact hidle
    · replace hp : Function.update s.pendingByExpert (s.tasks t).key none k = none := hp
      rw [Function.update_of_ne hk] at hp
      exact hT.rest k e₁ h hp
  · intro k t' e₁ hp h hfree
    exact hT.waits k t' e₁ (hpending hp).2 h fun w' => htask w' ▸ hfree w'
  · intro w' t' e₁ hw' h
    have hne : w' ≠ w := by
      rintro rfl
      replace hw' : stage (Function.update s.workers w' (.notifying t result callbacks) w') =
        .holds t' := hw'
      rw [Function.update_self] at hw'
      cases hw'
    replace hw' : stage (Function.update s.workers w (.notifying t result callbacks) w') =
      .holds t' := hw'
    show Agrees _ _ (Function.update s.workers w (.notifying t result callbacks) w')
    rw [Function.update_of_ne hne] at hw' ⊢
    exact hT.held w' t' e₁ hw' h
  · exact hT.locked.step (by show _ = trims (s.workers w); rw [hw]; rfl)

theorem enqueue (hd : Dispatched cfg s) (hT : Tracked s.core) {request : ScheduleRequest}
    {callback : Bool} {e : ExpertState} (he : s.states request.key = some e)
    (hp : s.pendingByExpert request.key = none) :
    Tracked { s.core with
      states := s.states.set request.key (begun request e)
      targets := Function.update s.core.targets s.nextTask
        ⟨request.key, request.destination, request.eviction⟩
      nextTask := s.nextTask + 1
      pendingByExpert := Function.update s.pendingByExpert request.key (some s.nextTask)
      requests := Function.update s.requests s.nextRequest
        (some ⟨request, .task s.nextTask, callback⟩) } := by
  have htarget : ∀ {t : TaskId}, t < s.nextTask → Function.update s.core.targets s.nextTask
      ⟨request.key, request.destination, request.eviction⟩ t = (s.tasks t).target :=
    fun ht => Function.update_of_ne (Nat.ne_of_lt ht) ..
  have hsome : ∀ k, (∃ e₁, s.states k = some e₁) →
      ∃ e₁, s.states.set request.key (begun request e) k = some e₁ := by
    intro k h
    by_cases hk : k = request.key
    · exact ⟨_, by rw [hk, States.set_self]⟩
    · rw [States.set_of_ne hk]
      exact h
  refine { hT with pending := ?_, accepted := ?_, rest := ?_, waits := ?_, held := ?_ }
  · intro k t h
    by_cases hk : k = request.key
    · exact hsome k ⟨e, hk ▸ he⟩
    · replace h : Function.update s.pendingByExpert request.key (some s.nextTask) k = some t := h
      rw [Function.update_of_ne hk] at h
      exact hsome k (hT.pending k t h)
  · intro n a h
    replace h : Function.update s.requests s.nextRequest
      (some ⟨request, .task s.nextTask, callback⟩) n = some a := h
    rw [Function.update_apply] at h
    split at h
    · obtain rfl := Option.some.inj h
      exact hsome _ ⟨e, he⟩
    · exact hsome _ (hT.accepted n a h)
  · intro k e₁ h hp'
    have hk : k ≠ request.key := by
      rintro rfl
      replace hp' : Function.update s.pendingByExpert request.key (some s.nextTask) request.key =
        none := hp'
      rw [Function.update_self] at hp'
      cases hp'
    replace h : s.states.set request.key (begun request e) k = some e₁ := h
    replace hp' : Function.update s.pendingByExpert request.key (some s.nextTask) k = none := hp'
    rw [States.set_of_ne hk] at h
    rw [Function.update_of_ne hk] at hp'
    exact hT.rest k e₁ h hp'
  · intro k t e₁ hp' h hfree
    replace h : s.states.set request.key (begun request e) k = some e₁ := h
    replace hp' : Function.update s.pendingByExpert request.key (some s.nextTask) k = some t := hp'
    show e₁.state = waiting (Function.update s.core.targets s.nextTask _ t).eviction
    by_cases hk : k = request.key
    · subst hk
      rw [States.set_self] at h
      rw [Function.update_self] at hp'
      obtain rfl := Option.some.inj h
      obtain rfl := Option.some.inj hp'
      rw [Function.update_self]
      rfl
    · rw [States.set_of_ne hk] at h
      rw [Function.update_of_ne hk] at hp'
      rw [htarget (hd.1.pendingKey k t hp').1]
      exact hT.waits k t e₁ hp' h hfree
  · intro w t e₁ hw h
    have hlt := (hd.1.holds w t hw).1
    obtain ⟨hpt, -⟩ := held_task hd hT hw
    have hk : (s.tasks t).key ≠ request.key := by
      intro hk
      rw [hk] at hpt
      exact absurd (hp.symm.trans hpt) (by simp)
    replace h : s.states.set request.key (begun request e)
      (Function.update s.core.targets s.nextTask _ t).key = some e₁ := h
    show Agrees (Function.update s.core.targets s.nextTask _ t).eviction _ _
    rw [htarget hlt] at h ⊢
    replace h : s.states.set request.key (begun request e) (s.tasks t).key = some e₁ := h
    rw [States.set_of_ne hk] at h
    exact hT.held w t e₁ hw h

theorem register (hd : Dispatched cfg s) (hT : Tracked s.core) {k : ExpertKey}
    {e : ExpertState} (hn : s.states k = none) (he : e.state = .Ready) :
    Tracked { s.core with states := s.states.set k e } := by
  have hne : ∀ {k' : ExpertKey}, (∃ e₁, s.states k' = some e₁) → k' ≠ k := by
    rintro k' ⟨e₁, h⟩ rfl
    exact absurd (hn.symm.trans h) (by simp)
  refine { hT with pending := ?_, accepted := ?_, rest := ?_, waits := ?_, held := ?_ }
  · intro k' t h
    obtain ⟨e₁, h₁⟩ := hT.pending k' t h
    exact ⟨e₁, (States.set_of_ne (hne ⟨e₁, h₁⟩) ..).trans h₁⟩
  · intro n a h
    obtain ⟨e₁, h₁⟩ := hT.accepted n a h
    exact ⟨e₁, (States.set_of_ne (hne ⟨e₁, h₁⟩) ..).trans h₁⟩
  · intro k' e₁ h hp
    replace h : s.states.set k e k' = some e₁ := h
    rw [States.set_apply] at h
    split at h
    · obtain rfl := Option.some.inj h
      exact .inl he
    · exact hT.rest k' e₁ h hp
  · intro k' t e₁ hp h hfree
    have h' : s.states.set k e k' = some e₁ := h
    rw [States.set_of_ne (hne (hT.pending k' t hp))] at h'
    exact hT.waits k' t e₁ hp h' hfree
  · intro w t e₁ hw h
    obtain ⟨-, e₂, h₂, -⟩ := held_task hd hT hw
    have h' : s.states.set k e (s.tasks t).key = some e₁ := h
    rw [States.set_of_ne (hne ⟨e₂, h₂⟩)] at h'
    exact hT.held w t e₁ hw h'

/-- one more request, for a registered expert -/
theorem request (hT : Tracked c) {n : RequestId} {a : Accepted}
    (ha : ∃ e, c.states a.request.key = some e) (calls : RequestId → Option ReadyCall) :
    Tracked { c with requests := Function.update c.requests n (some a), calls := calls } := by
  refine { hT with accepted := ?_ }
  intro n' a' h
  replace h : Function.update c.requests n (some a) n' = some a' := h
  rw [Function.update_apply] at h
  split at h
  · exact Option.some.inj h ▸ ha
  · exact hT.accepted n' a' h

end Tracked

/-! ## every change -/

theorem Change.tracked {a : Action} (hd : Dispatched cfg s) (hT : Tracked s.core)
    (h : Change cfg s a c) : Tracked c := by
  have hready : parked .Ready := by unfold parked; simp
  have hinUse : parked .InUse := by unfold parked; simp
  have hstep : ∀ {w : WorkerId} {pc pc' : WorkerPc}, s.workers w = pc' → trims pc = trims pc' →
      Locks s.lock (Function.update s.workers w pc) :=
    fun hw ht => Locks.step hT.locked (ht.trans (congrArg trims hw).symm)
  have houtside : ∀ {lock : Option Holder}, (∀ w, s.lock ≠ some (.worker w)) →
      (∀ w, lock ≠ some (.worker w)) → Locks lock s.workers :=
    fun hl hl' => Locks.outside hT.locked hl hl'
  cases h with
  | same ha => exact hT
  | register hn => exact hT.register hd hn rfl
  | acquire he hs => exact hT.setState _ he (hs ▸ hready) (.inr rfl)
  | release he hs => exact hT.setState _ he (hs ▸ hinUse) (.inl rfl)
  | reconcile he hr => exact hT.setState _ he (parked_of_reconcilable hr) (.inl rfl)
  | @acknowledge k location e he hr =>
    have h := hT.setState (e.settled location) he (parked_of_reconcilable hr) (.inl rfl)
    exact { h with }
  | acknowledgeRefused => exact { hT with }
  | expireBegins hl => exact { hT with locked := houtside (by simp [hl]) (by simp) }
  | expireKeeps hl => exact { hT with locked := houtside (by simp [hl]) (by simp) }
  | expireEnds hl => exact { hT with locked := houtside (by simp [hl]) (by simp) }
  | @expire layerId k rest wasted e hl hk he hr =>
    have h := hT.setState (e.settled .Nvme) he (parked_of_reconcilable hr) (.inl rfl)
    exact { h with locked := houtside (by simp [hl]) (by simp) }
  | expireRefused hl hk hr => exact { hT with locked := houtside (by simp [hl]) (by simp) }
  | @answersAtOnce _ request callback e ha he hi =>
    exact hT.request (a := ⟨request, .own s.nextRequest, callback⟩) ⟨e, he⟩ _
  | @join _ request callback t ha hp hd' =>
    exact hT.request (a := ⟨request, .task t, callback⟩) (hT.pending request.key t hp) _
  | enqueue ha he hp hi hc => exact hT.enqueue hd he hp
  | looks ha hc => exact { hT with }
  | snapshots ha hc he => exact { hT with }
  | answers ha hc => exact { hT with }
  | answered hc => exact { hT with }
  | returned h => exact { hT with }
  | claim hw hp hf => exact hT.claim hw hp hf
  | exits hw => exact hT.rests hd (by rw [hw]; simp [stage]) (by simp [stage]) _
  | @fails w outcome t result hw hr =>
    have hholds : stage (s.workers w) = .holds t := by rcases hw with hw | hw <;> rw [hw] <;> rfl
    have hlock : Locks s.lock (Function.update s.workers w (.failing t result)) := by
      rcases hw with hw | hw <;> exact hstep hw rfl
    refine hT.goOn hd (.failing t result) hholds rfl (fun x hx => ⟨hr, ?_⟩) hlock _ _
    rcases hw with hw | hw <;> rw [hw] at hx
    · have hx' : x = waiting _ := hx
      rw [hx']
      unfold waiting
      split <;> simp
    · have hx' : x = moving _ := hx
      rw [hx']
      unfold moving
      split <;> simp
  | @launch w outcome t e hw he =>
    exact hT.write hd (.loading t) { e with state := moving (s.tasks t).request.eviction }
      (by rw [hw]; rfl) rfl rfl (hstep hw rfl) _
  | @transferred w t r hw ha hs =>
    exact hT.goOn hd (.transferred t r) (by rw [hw]; rfl) rfl
      (fun x hx => by rw [hw] at hx; exact hx) (hstep hw rfl) _ _
  | @finish w outcome t r e hw he =>
    exact hT.write hd (.ready t r) (e.settled (s.tasks t).request.destination) (by rw [hw]; rfl) rfl
      (show usable .Ready from .inl rfl) (hstep hw rfl) _
  | @record w outcome t r pc lock hw hl hpc =>
    have hfree : Locks none s.workers := hl ▸ hT.locked
    rcases hpc with ⟨rfl, rfl⟩ | ⟨candidates, rfl, rfl⟩
    · exact hT.goOn hd (.recorded t r) (by rw [hw]; rfl) rfl
        (fun x hx => by rw [hw] at hx; exact hx) (hl ▸ hstep hw rfl) _ _
    · exact hT.goOn hd (.trimming t r 0 candidates) (by rw [hw]; rfl) rfl
        (fun x hx => by rw [hw] at hx; exact hx) (hfree.take rfl) _ _
  | @keeps w outcome t r cachedBytes cachedBytes' k rest hw =>
    exact hT.goOn hd (.trimming t r cachedBytes' rest) (by rw [hw]; rfl) rfl
      (fun x hx => by rw [hw] at hx; exact hx) (hstep hw rfl) _ _
  | @dropsOwn w outcome t r found cachedBytes rest hw hf hx =>
    exact hT.goOn hd (.trimming t r cachedBytes rest) (by rw [hw]; rfl) rfl
      (fun x hx => by rw [hw] at hx; exact hx) (hstep hw rfl) _ _
  | @drops w outcome t r found cachedBytes k rest e hw hf hx hc he hr =>
    -- the worker goes on, then the record of the other expert changes
    have h := hT.goOn hd (.trimming t r cachedBytes rest) (by rw [hw]; rfl) rfl
      (fun x hx => by rw [hw] at hx; exact hx) (hstep hw rfl)
      (Function.update s.residentTransfers k none) s.core.history
    exact h.setState (e.settled .Nvme) he (parked_of_reconcilable hr) (.inl rfl)
  | @dropRefused w outcome t r found cachedBytes k rest x hw hf hx hc hr =>
    refine hT.goOn hd (.failing t (failure x)) (by rw [hw]; rfl) rfl (fun x hx => ⟨rfl, ?_⟩)
      (Locks.leave hT.locked (congrArg trims hw) rfl) _ _
    rw [hw] at hx
    have hx' : usable x := hx
    rcases hx' with hx' | hx' <;> rw [hx'] <;> simp
  | @trimmed w outcome t r cachedBytes hw =>
    exact hT.goOn hd (.recorded t r) (by rw [hw]; rfl) rfl
      (fun x hx => by rw [hw] at hx; exact hx) (Locks.leave hT.locked (congrArg trims hw) rfl) _ _
  | @succeeds w outcome t r e hw he =>
    refine hT.goOn hd (.completing t _) (by rw [hw]; rfl) rfl (fun x hx => ?_)
      (hstep hw rfl) _ _
    rw [hw] at hx
    exact idle_of_usable hx
  | @marksFailed w outcome t result e hw he =>
    obtain ⟨-, e₁, -, hagrees⟩ := held_task hd hT (w := w) (t := t) (by rw [hw]; rfl)
    rw [hw] at hagrees
    exact hT.write hd (.failed t result) { e with state := .Failed } (by rw [hw]; rfl) rfl
      ⟨hagrees.1, .inr (.inr rfl)⟩ (hstep hw rfl) _
  | @notesFailure w outcome t result e hw =>
    refine hT.goOn hd (.completing t _) (by rw [hw]; rfl) rfl (fun x hx => ?_)
      (hstep hw rfl) _ _
    rw [hw] at hx
    exact hx.2
  | completes hw => exact hT.completes hd hw _
  | calls hw => exact hT.rests hd (by rw [hw]; simp [stage]) (by simp [stage]) _
  | resolves hw => exact hT.rests hd (by rw [hw]; simp [stage]) (by simp [stage]) _

/-! ## every reachable state -/

theorem new_tracked : Tracked ({} : Scheduler).core where
  pending k t h := by cases h
  accepted n a h := by cases h
  rest k e h := by cases h
  waits k t e h := by cases h
  held w t e h := by cases h
  locked w := by simp [core, trims]

/-- what holds in every reachable state of the scheduler -/
structure Sound (cfg : SchedulerConfig) (s : Scheduler) : Prop where
  dispatched : Dispatched cfg s
  tracked : Tracked s.core
  alive : s.terminated = false

theorem step_sound {a : Action} (h : Sound cfg s) (hs : step cfg a s = some s') : Sound cfg s' := by
  obtain ⟨hc, ht⟩ := step_change h.dispatched h.tracked hs
  exact ⟨step_dispatched h.dispatched hs, hc.tracked h.dispatched h.tracked, ht⟩

theorem new_sound : Sound cfg {} := ⟨new_dispatched, new_tracked, rfl⟩

theorem run_sound {as : List Action} (h : run cfg as = some s) : Sound cfg s :=
  Runs.run_invariant (fun _ _ _ hs h => step_sound h hs) new_sound h

end HyperMoE.Scheduler
