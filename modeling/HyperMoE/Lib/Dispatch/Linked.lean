import HyperMoE.Lib.Dispatch.Pool

/-!
# Shared tasks, dispatched once: where a task is

* `Linked`        every task is in one place: in the queue with one entry of its generation, held by
                  one worker, or completed; the pending task of a key is the one that is not
                  completed;
* `Step.linked`   every step keeps it, one lemma for each kind of step.
-/

namespace HyperMoE.Lib.Dispatch

variable {κ π ρ : Type}

open Pool

structure Linked (n : Nat) (p : Pool κ π ρ) : Prop where
  pendingKey : ∀ k t, p.pending k = some t →
    t < p.next ∧ (p.tickets t).key = k ∧ (p.tickets t).completed = false
  owned : ∀ t < p.next, (p.tickets t).completed = false → p.pending (p.tickets t).key = some t
  entries : ∀ e ∈ p.queue, e.task < p.next ∧ e.generation ≤ (p.tickets e.task).generation
  queued : ∀ t < p.next, (p.tickets t).started = false →
    p.queue.filter (current t (p.tickets t).generation) =
      [⟨t, (p.tickets t).rank, (p.tickets t).generation⟩]
  begun : ∀ t < p.next, (p.tickets t).completed = true → (p.tickets t).started = true
  held : ∀ t < p.next, (p.tickets t).started = true → (p.tickets t).completed = false →
    ∃ w < n, p.workers w = .holds t
  holds : ∀ w t, p.workers w = .holds t →
    t < p.next ∧ (p.tickets t).started = true ∧ (p.tickets t).completed = false
  delivers : ∀ w t r rest, p.workers w = .delivers t r rest →
    t < p.next ∧ (p.tickets t).completed = true
  exclusive : ∀ w w' t, (p.workers w).task = some t → (p.workers w').task = some t → w = w'
  drained : ∀ w, p.workers w = .exited → p.stopping = true ∧ p.queue = []
  crew : ∀ w, n ≤ w → p.workers w = .idle

namespace Linked

variable {n : Nat} {p : Pool κ π ρ}

/-- two pending tasks have two keys -/
theorem unique (h : Linked n p) {t t' : Nat} (ht : t < p.next) (ht' : t' < p.next)
    (hc : (p.tickets t).completed = false) (hc' : (p.tickets t').completed = false)
    (hk : (p.tickets t).key = (p.tickets t').key) : t = t' :=
  Option.some.inj ((h.owned t ht hc).symm.trans (hk ▸ h.owned t' ht' hc'))

/-- two workers are at work on two tasks -/
theorem task_ne (h : Linked n p) {w w' t t' : Nat} (hw : (p.workers w).task = some t)
    (hw' : (p.workers w').task = some t') (e : w' ≠ w) : t' ≠ t := by
  rintro rfl
  exact e (h.exclusive w' w t' hw' hw)

/-- a worker that moves on with the task it has -/
theorem setWorker_same {w : Nat} {stage : Stage ρ} (h : Linked n p)
    (ht : stage.task = (p.workers w).task) (hh : ∀ t, stage = .holds t → p.workers w = .holds t)
    (hd : ∀ t r rest, stage = .delivers t r rest → ∃ r' rest', p.workers w = .delivers t r' rest')
    (hk : ∀ t, p.workers w = .holds t → stage = .holds t) (he : stage ≠ .exited)
    (hw : n ≤ w → stage = .idle) : Linked n (p.setWorker w stage) := by
  have hsame : ∀ w', ((p.setWorker w stage).workers w').task = (p.workers w').task := by
    intro w'
    show (Function.update p.workers w stage w').task = _
    rw [Function.update_apply]
    split
    · next hw' => rw [hw', ht]
    · rfl
  refine { h with held := ?_, holds := ?_, delivers := ?_, exclusive := ?_, drained := ?_,
                  crew := ?_ }
  · intro t ht hs hc
    obtain ⟨w', hn, hw'⟩ := h.held t ht hs hc
    refine ⟨w', hn, ?_⟩
    show Function.update p.workers w stage w' = _
    rw [Function.update_apply]
    split
    · next e => exact hk t (e ▸ hw')
    · exact hw'
  · intro w' t hw'
    replace hw' : Function.update p.workers w stage w' = _ := hw'
    rw [Function.update_apply] at hw'
    split at hw'
    · exact h.holds w t (hh t hw')
    · exact h.holds w' t hw'
  · intro w' t r rest hw'
    replace hw' : Function.update p.workers w stage w' = _ := hw'
    rw [Function.update_apply] at hw'
    split at hw'
    · obtain ⟨r', rest', hp⟩ := hd t r rest hw'
      exact h.delivers w t r' rest' hp
    · exact h.delivers w' t r rest hw'
  · intro w₁ w₂ t h₁ h₂
    exact h.exclusive w₁ w₂ t (hsame w₁ ▸ h₁) (hsame w₂ ▸ h₂)
  · intro w' hw'
    replace hw' : Function.update p.workers w stage w' = _ := hw'
    rw [Function.update_apply] at hw'
    split at hw'
    · exact absurd hw' he
    · exact h.drained w' hw'
  · intro w' hn
    show Function.update p.workers w stage w' = _
    rw [Function.update_apply]
    split
    · next e => exact hw (e ▸ hn)
    · exact h.crew w' hn

/-- a worker takes up what nobody else is at work on -/
theorem exclusive_setWorker {w : Nat} {stage : Stage ρ} (h : Linked n p)
    (hfree : ∀ w' t, w' ≠ w → stage.task = some t → (p.workers w').task ≠ some t) :
    ∀ w₁ w₂ t, ((p.setWorker w stage).workers w₁).task = some t →
      ((p.setWorker w stage).workers w₂).task = some t → w₁ = w₂ := by
  intro w₁ w₂ t h₁ h₂
  by_cases e₁ : w₁ = w <;> by_cases e₂ : w₂ = w
  · rw [e₁, e₂]
  · subst e₁
    rw [setWorker_of_ne _ e₂] at h₂
    replace h₁ : (Function.update p.workers w₁ stage w₁).task = some t := h₁
    rw [Function.update_self] at h₁
    exact absurd h₂ (hfree w₂ t e₂ h₁)
  · subst e₂
    rw [setWorker_of_ne _ e₁] at h₁
    replace h₂ : (Function.update p.workers w₂ stage w₂).task = some t := h₂
    rw [Function.update_self] at h₂
    exact absurd h₁ (hfree w₁ t e₁ h₂)
  · rw [setWorker_of_ne _ e₁] at h₁
    rw [setWorker_of_ne _ e₂] at h₂
    exact h.exclusive w₁ w₂ t h₁ h₂

/-- the part of a ticket that the links are about -/
theorem setCallbacks (h : Linked n p) (t : Nat) (callbacks : List Nat) :
    Linked n (p.setTicket t { p.tickets t with callbacks := callbacks }) := by
  have hsame : ∀ {β : Type} (f : Ticket κ π → β) (_ : f { p.tickets t with
      callbacks := callbacks } = f (p.tickets t)) t', f ((p.setTicket t { p.tickets t with
      callbacks := callbacks }).tickets t') = f (p.tickets t') := setTicket_same
  have hkey := hsame Ticket.key rfl
  have hrank := hsame Ticket.rank rfl
  have hgen := hsame Ticket.generation rfl
  have hst := hsame Ticket.started rfl
  have hco := hsame Ticket.completed rfl
  refine { h with pendingKey := ?_, owned := ?_, entries := ?_, queued := ?_, begun := ?_,
                  held := ?_, holds := ?_, delivers := ?_ }
  · intro k t' hp
    rw [hkey, hco]
    exact h.pendingKey k t' hp
  · intro t' ht hc
    rw [hkey]
    exact h.owned t' ht (hco t' ▸ hc)
  · intro e he
    rw [hgen]
    exact h.entries e he
  · intro t' ht hs
    rw [hgen, hrank]
    exact h.queued t' ht (hst t' ▸ hs)
  · intro t' ht hc
    rw [hst]
    exact h.begun t' ht (hco t' ▸ hc)
  · intro t' ht hs hc
    exact h.held t' ht (hst t' ▸ hs) (hco t' ▸ hc)
  · intro w t' hw
    rw [hst, hco]
    exact h.holds w t' hw
  · intro w t' r rest hw
    rw [hco]
    exact h.delivers w t' r rest hw

theorem accept {queue : List (Entry π)} {rank : π} {k : κ} [DecidableEq κ] (h : Linked n p)
    (callbacks : List Nat) (hk : p.pending k = none) (hs : p.stopping = false)
    (hq : queue.Perm (⟨p.next, rank, 0⟩ :: p.queue)) :
    Linked n (({ p with
      next := p.next + 1
      queue := queue
      pending := Function.update p.pending k (some p.next) }).setTicket p.next
        ⟨k, rank, 0, callbacks, false, false⟩) := by
  -- an older task keeps its ticket
  have hold : ∀ t < p.next, (Function.update p.tickets p.next
      ⟨k, rank, 0, callbacks, false, false⟩) t = p.tickets t :=
    fun t ht => Function.update_of_ne (Nat.ne_of_lt ht) ..
  have hnew : (Function.update p.tickets p.next
      ⟨k, rank, 0, callbacks, false, false⟩) p.next = ⟨k, rank, 0, callbacks, false, false⟩ :=
    Function.update_self ..
  refine { h with pendingKey := ?_, owned := ?_, entries := ?_, queued := ?_, begun := ?_,
                  held := ?_, holds := ?_, delivers := ?_, drained := ?_ }
  · intro k' t hp
    replace hp : Function.update p.pending k (some p.next) k' = some t := hp
    rw [Function.update_apply] at hp
    split at hp
    · next e =>
      obtain rfl := Option.some.inj hp
      refine ⟨Nat.lt_succ_self _, ?_⟩
      show ((Function.update p.tickets p.next _) p.next).key = k' ∧
        ((Function.update p.tickets p.next _) p.next).completed = false
      rw [hnew]
      exact ⟨e.symm, rfl⟩
    · obtain ⟨ht, hkey⟩ := h.pendingKey k' t hp
      refine ⟨Nat.lt_succ_of_lt ht, ?_⟩
      show ((Function.update p.tickets p.next _) t).key = k' ∧
        ((Function.update p.tickets p.next _) t).completed = false
      rw [hold t ht]
      exact hkey
  · intro t ht hc
    show Function.update p.pending k (some p.next) ((Function.update p.tickets p.next _) t).key = _
    replace hc : ((Function.update p.tickets p.next _) t).completed = false := hc
    rcases Nat.lt_succ_iff_lt_or_eq.mp ht with ht | rfl
    · rw [hold t ht] at hc ⊢
      have hp := h.owned t ht hc
      rw [Function.update_of_ne fun e => by rw [e, hk] at hp; cases hp]
      exact hp
    · rw [hnew, Function.update_self]
  · intro e he
    show e.task < p.next + 1 ∧ e.generation ≤ ((Function.update p.tickets p.next _) e.task).generation
    rcases List.mem_cons.mp (hq.mem_iff.mp he) with rfl | he
    · exact ⟨Nat.lt_succ_self _, Nat.zero_le _⟩
    · obtain ⟨ht, hg⟩ := h.entries e he
      rw [hold _ ht]
      exact ⟨Nat.lt_succ_of_lt ht, hg⟩
  · intro t ht hst
    show queue.filter (current t ((Function.update p.tickets p.next _) t).generation) =
      [⟨t, ((Function.update p.tickets p.next _) t).rank,
        ((Function.update p.tickets p.next _) t).generation⟩]
    replace hst : ((Function.update p.tickets p.next _) t).started = false := hst
    rcases Nat.lt_succ_iff_lt_or_eq.mp ht with ht | rfl
    · rw [hold t ht] at hst ⊢
      refine filter_perm hq ?_
      rw [List.filter_cons_of_neg (by simp [current, Nat.ne_of_gt ht]), h.queued t ht hst]
    · rw [hnew]
      refine filter_perm hq ?_
      have hnone : p.queue.filter (current p.next 0) = [] := by
        rw [List.filter_eq_nil_iff]
        intro e he
        have hlt := (h.entries e he).1
        simp [current, Nat.ne_of_lt hlt]
      rw [List.filter_cons_of_pos (by simp [current]), hnone]
  · intro t ht hc
    show ((Function.update p.tickets p.next _) t).started = true
    replace hc : ((Function.update p.tickets p.next _) t).completed = true := hc
    rcases Nat.lt_succ_iff_lt_or_eq.mp ht with ht | rfl
    · rw [hold t ht] at hc ⊢
      exact h.begun t ht hc
    · rw [hnew] at hc
      cases hc
  · intro t ht hst hc
    replace hst : ((Function.update p.tickets p.next _) t).started = true := hst
    replace hc : ((Function.update p.tickets p.next _) t).completed = false := hc
    rcases Nat.lt_succ_iff_lt_or_eq.mp ht with ht | rfl
    · rw [hold t ht] at hst hc
      exact h.held t ht hst hc
    · rw [hnew] at hst
      cases hst
  · intro w t hw
    obtain ⟨ht, hst⟩ := h.holds w t hw
    refine ⟨Nat.lt_succ_of_lt ht, ?_⟩
    show ((Function.update p.tickets p.next _) t).started = true ∧
      ((Function.update p.tickets p.next _) t).completed = false
    rw [hold t ht]
    exact hst
  · intro w t r rest hw
    obtain ⟨ht, hc⟩ := h.delivers w t r rest hw
    refine ⟨Nat.lt_succ_of_lt ht, ?_⟩
    show ((Function.update p.tickets p.next _) t).completed = true
    rw [hold t ht]
    exact hc
  · intro w hw
    exact absurd ((h.drained w hw).1.symm.trans hs) (by simp)

/-- the task goes into the queue once more: its earlier entries have an earlier generation -/
theorem requeue {queue : List (Entry π)} {rank : π} {k : κ} {t : Nat} (h : Linked n p)
    (hk : p.pending k = some t) (hs : p.stopping = false)
    (hq : queue.Perm (⟨t, rank, (p.tickets t).generation + 1⟩ :: p.queue)) :
    Linked n (({ p with queue := queue }).setTicket t { p.tickets t with
      rank := rank
      generation := (p.tickets t).generation + 1 }) := by
  have hself : (Function.update p.tickets t { p.tickets t with
      rank := rank, generation := (p.tickets t).generation + 1 }) t = { p.tickets t with
      rank := rank, generation := (p.tickets t).generation + 1 } := Function.update_self ..
  have hne : ∀ t', t' ≠ t → (Function.update p.tickets t { p.tickets t with
      rank := rank, generation := (p.tickets t).generation + 1 }) t' = p.tickets t' :=
    fun t' e => Function.update_of_ne e ..
  have hsame : ∀ {β : Type} (f : Ticket κ π → β) (_ : f { p.tickets t with
      rank := rank, generation := (p.tickets t).generation + 1 } = f (p.tickets t)) t',
      f ((Function.update p.tickets t { p.tickets t with
      rank := rank, generation := (p.tickets t).generation + 1 }) t') = f (p.tickets t') :=
    setTicket_same
  have hkey := hsame Ticket.key rfl
  have hst := hsame Ticket.started rfl
  have hco := hsame Ticket.completed rfl
  refine { h with pendingKey := ?_, owned := ?_, entries := ?_, queued := ?_, begun := ?_,
                  held := ?_, holds := ?_, delivers := ?_, drained := ?_ }
  · intro k t' hp
    obtain ⟨ht, hk, hc⟩ := h.pendingKey k t' hp
    exact ⟨ht, (hkey t').trans hk, (hco t').trans hc⟩
  · intro t' ht hc
    refine (congrArg p.pending (hkey t')).trans (h.owned t' ht ((hco t').symm.trans hc))
  · intro e he
    show e.task < p.next ∧ e.generation ≤ ((Function.update p.tickets t _) e.task).generation
    rcases List.mem_cons.mp (hq.mem_iff.mp he) with rfl | he
    · exact ⟨(h.pendingKey k t hk).1, Nat.le_of_eq (congrArg Ticket.generation hself).symm⟩
    · obtain ⟨ht, hg⟩ := h.entries e he
      refine ⟨ht, ?_⟩
      by_cases e' : e.task = t
      · rw [e', hself]
        exact Nat.le_succ_of_le (e' ▸ hg)
      · rw [hne _ e']
        exact hg
  · intro t' ht hst'
    show queue.filter (current t' ((Function.update p.tickets t _) t').generation) =
      [⟨t', ((Function.update p.tickets t _) t').rank,
        ((Function.update p.tickets t _) t').generation⟩]
    refine filter_perm hq ?_
    by_cases e : t' = t
    · subst e
      rw [hself]
      have hnone : p.queue.filter (current t' ((p.tickets t').generation + 1)) = [] := by
        rw [List.filter_eq_nil_iff]
        intro x hx hcur
        obtain ⟨hxt, hxg⟩ : x.task = t' ∧ x.generation = (p.tickets t').generation + 1 := by
          simpa [current] using hcur
        have hle := (h.entries x hx).2
        rw [hxt, hxg] at hle
        omega
      rw [List.filter_cons_of_pos (by simp [current]), hnone]
    · rw [hne t' e, List.filter_cons_of_neg (by simp [current, Ne.symm e])]
      exact h.queued t' ht ((hst t').symm.trans hst')
  · intro t' ht hc
    exact (hst t').trans (h.begun t' ht ((hco t').symm.trans hc))
  · intro t' ht hs' hc
    exact h.held t' ht ((hst t').symm.trans hs') ((hco t').symm.trans hc)
  · intro w t' hw
    obtain ⟨ht, hs', hc⟩ := h.holds w t' hw
    exact ⟨ht, (hst t').trans hs', (hco t').trans hc⟩
  · intro w t' r rest hw
    obtain ⟨ht, hc⟩ := h.delivers w t' r rest hw
    exact ⟨ht, (hco t').trans hc⟩
  · intro w hw
    exact absurd ((h.drained w hw).1.symm.trans hs) (by simp)

/-- an entry of an unstarted task that is in its generation is live -/
theorem live_of_current (h : Linked n p) {t : Nat} {e : Entry π} (ht : t < p.next)
    (hs : (p.tickets t).started = false) (hc : current t (p.tickets t).generation e = true) :
    p.Live e := by
  obtain ⟨rfl, hg⟩ : e.task = t ∧ e.generation = (p.tickets t).generation := by
    simpa [current] using hc
  refine ⟨?_, hs, hg⟩
  cases hco : (p.tickets e.task).completed with
  | false => rfl
  | true => exact absurd ((h.begun _ ht hco).symm.trans hs) (by simp)

theorem filter_stale (h : Linked n p) {t : Nat} {entries : List (Entry π)} (ht : t < p.next)
    (hs : (p.tickets t).started = false) (hstale : ∀ x ∈ entries, ¬ p.Live x) :
    entries.filter (current t (p.tickets t).generation) = [] := by
  rw [List.filter_eq_nil_iff]
  exact fun x hx hc => hstale x hx (h.live_of_current ht hs hc)

theorem claim {w : Nat} {before after : List (Entry π)} {e : Entry π} (h : Linked n p) (hw : w < n)
    (hi : p.workers w = .idle) (hq : p.queue = before ++ e :: after)
    (hstale : ∀ x ∈ before, ¬ p.Live x) (hlive : p.Live e) :
    Linked n ((({ p with queue := after }).setTicket e.task
      { p.tickets e.task with started := true }).setWorker w (.holds e.task)) := by
  have hself : (Function.update p.tickets e.task { p.tickets e.task with started := true }) e.task =
      { p.tickets e.task with started := true } := Function.update_self ..
  have hne : ∀ t, t ≠ e.task → (Function.update p.tickets e.task
      { p.tickets e.task with started := true }) t = p.tickets t :=
    fun t e => Function.update_of_ne e ..
  have hlt : e.task < p.next := (h.entries e (by rw [hq]; simp)).1
  -- nobody else is at work on the task
  have hfree : ∀ w' t, (p.workers w').task = some t → t ≠ e.task := by
    intro w' t ht e'
    cases hst : p.workers w' with
    | idle => rw [hst] at ht; cases ht
    | exited => rw [hst] at ht; cases ht
    | holds t' =>
      rw [hst] at ht
      obtain rfl := Option.some.inj ht
      exact absurd (((h.holds w' t' hst).2.1).symm.trans (e' ▸ hlive.2.1)) (by simp)
    | delivers t' r rest =>
      rw [hst] at ht
      obtain rfl := Option.some.inj ht
      exact absurd (((h.delivers w' t' r rest hst).2).symm.trans (e' ▸ hlive.1)) (by simp)
  refine { h with pendingKey := ?_, owned := ?_, entries := ?_, queued := ?_, begun := ?_,
                  held := ?_, holds := ?_, delivers := ?_, exclusive := ?_, drained := ?_,
                  crew := ?_ }
  · intro k t hp
    obtain ⟨ht, hk, hc⟩ := h.pendingKey k t hp
    refine ⟨ht, ?_⟩
    show ((Function.update p.tickets e.task _) t).key = k ∧
      ((Function.update p.tickets e.task _) t).completed = false
    by_cases e' : t = e.task
    · subst e'
      rw [hself]
      exact ⟨hk, hc⟩
    · rw [hne t e']
      exact ⟨hk, hc⟩
  · intro t ht hc
    show p.pending ((Function.update p.tickets e.task _) t).key = some t
    replace hc : ((Function.update p.tickets e.task _) t).completed = false := hc
    by_cases e' : t = e.task
    · subst e'
      rw [hself] at hc ⊢
      exact h.owned _ ht hc
    · rw [hne t e'] at hc ⊢
      exact h.owned t ht hc
  · intro x hx
    obtain ⟨ht, hg⟩ := h.entries x
      (hq ▸ List.mem_append_right _ (List.mem_cons_of_mem _ hx))
    refine ⟨ht, ?_⟩
    show x.generation ≤ ((Function.update p.tickets e.task _) x.task).generation
    by_cases e' : x.task = e.task
    · rw [e', hself]
      exact e' ▸ hg
    · rw [hne _ e']
      exact hg
  · intro t ht hs
    show after.filter (current t ((Function.update p.tickets e.task _) t).generation) =
      [⟨t, ((Function.update p.tickets e.task _) t).rank,
        ((Function.update p.tickets e.task _) t).generation⟩]
    replace hs : ((Function.update p.tickets e.task _) t).started = false := hs
    by_cases e' : t = e.task
    · rw [e', hself] at hs
      cases hs
    · rw [hne t e'] at hs ⊢
      have hall := h.queued t ht hs
      rw [hq, List.filter_append, h.filter_stale ht hs hstale, List.nil_append,
        List.filter_cons_of_neg (by simp [current, Ne.symm e'])] at hall
      exact hall
  · intro t ht hc
    show ((Function.update p.tickets e.task _) t).started = true
    replace hc : ((Function.update p.tickets e.task _) t).completed = true := hc
    by_cases e' : t = e.task
    · rw [e', hself]
    · rw [hne t e'] at hc ⊢
      exact h.begun t ht hc
  · intro t ht hs hc
    replace hs : ((Function.update p.tickets e.task _) t).started = true := hs
    replace hc : ((Function.update p.tickets e.task _) t).completed = false := hc
    by_cases e' : t = e.task
    · exact ⟨w, hw, by rw [e']; exact Function.update_self ..⟩
    · rw [hne t e'] at hs hc
      obtain ⟨w', hn, hw'⟩ := h.held t ht hs hc
      refine ⟨w', hn, ?_⟩
      rw [setWorker_of_ne _ fun e => by rw [e, hi] at hw'; cases hw']
      exact hw'
  · intro w' t hw'
    show t < p.next ∧ ((Function.update p.tickets e.task _) t).started = true ∧
      ((Function.update p.tickets e.task _) t).completed = false
    rcases setWorker_cases hw' with ⟨-, e'⟩ | ⟨-, hw'⟩
    · obtain rfl := Stage.holds.inj e'
      rw [hself]
      exact ⟨hlt, rfl, hlive.1⟩
    · rw [hne t (hfree w' t (by rw [show p.workers w' = _ from hw']; rfl))]
      exact h.holds w' t hw'
  · intro w' t r rest hw'
    show t < p.next ∧ ((Function.update p.tickets e.task _) t).completed = true
    rcases setWorker_cases hw' with ⟨-, e'⟩ | ⟨-, hw'⟩
    · cases e'
    · rw [hne t (hfree w' t (by rw [show p.workers w' = _ from hw']; rfl))]
      exact h.delivers w' t r rest hw'
  · exact h.exclusive_setWorker fun w' t _ ht hw' => hfree w' t hw' (Option.some.inj ht).symm
  · intro w' hw'
    rcases setWorker_cases hw' with ⟨-, e'⟩ | ⟨-, hw'⟩
    · cases e'
    · have hnil := (h.drained w' hw').2
      rw [hq] at hnil
      exact absurd hnil (by simp)
  · intro w' hn
    rw [setWorker_of_ne _ (Nat.ne_of_gt (Nat.lt_of_lt_of_le hw hn))]
    exact h.crew w' hn

theorem drain (h : Linked n p) (hstale : ∀ x ∈ p.queue, ¬ p.Live x) :
    Linked n { p with queue := [] } := by
  refine { h with entries := ?_, queued := ?_, drained := ?_ }
  · exact fun e he => by cases he
  · intro t ht hs
    exact absurd (h.queued t ht hs) (by rw [h.filter_stale ht hs hstale]; simp)
  · exact fun w hw => ⟨(h.drained w hw).1, rfl⟩

theorem exit {w : Nat} (h : Linked n p) (hw : w < n) (hi : p.workers w = .idle)
    (hs : p.stopping = true) (hq : p.queue = []) : Linked n (p.setWorker w .exited) := by
  refine { h with held := ?_, holds := ?_, delivers := ?_, exclusive := ?_, drained := ?_,
                  crew := ?_ }
  · intro t ht hst hc
    obtain ⟨w', hn, hw'⟩ := h.held t ht hst hc
    refine ⟨w', hn, ?_⟩
    rw [setWorker_of_ne _ fun e => by rw [e, hi] at hw'; cases hw']
    exact hw'
  · intro w' t hw'
    rcases setWorker_cases hw' with ⟨-, e⟩ | ⟨-, hw'⟩
    · cases e
    · exact h.holds w' t hw'
  · intro w' t r rest hw'
    rcases setWorker_cases hw' with ⟨-, e⟩ | ⟨-, hw'⟩
    · cases e
    · exact h.delivers w' t r rest hw'
  · exact h.exclusive_setWorker fun w' t _ ht => by cases ht
  · intro w' hw'
    rcases setWorker_cases hw' with - | ⟨-, hw'⟩
    · exact ⟨hs, hq⟩
    · exact h.drained w' hw'
  · intro w' hn
    rw [setWorker_of_ne _ (Nat.ne_of_gt (Nat.lt_of_lt_of_le hw hn))]
    exact h.crew w' hn

theorem deliver {w t : Nat} {r : ρ} [DecidableEq κ] (h : Linked n p) (hw : p.workers w = .holds t) :
    Linked n ((({ p with pending := Function.update p.pending (p.tickets t).key none }).setTicket t
      { p.tickets t with completed := true }).setWorker w
        (.delivers t r (p.tickets t).callbacks)) := by
  obtain ⟨ht, hst, hco⟩ := h.holds w t hw
  have hself : (Function.update p.tickets t { p.tickets t with completed := true }) t =
      { p.tickets t with completed := true } := Function.update_self ..
  have hne : ∀ t', t' ≠ t → (Function.update p.tickets t
      { p.tickets t with completed := true }) t' = p.tickets t' := fun t' e => Function.update_of_ne e ..
  have hsame : ∀ {β : Type} (f : Ticket κ π → β) (_ : f { p.tickets t with
      completed := true } = f (p.tickets t)) t',
      f ((Function.update p.tickets t { p.tickets t with completed := true }) t') =
        f (p.tickets t') := setTicket_same
  have hkey := hsame Ticket.key rfl
  have hrank := hsame Ticket.rank rfl
  have hgen := hsame Ticket.generation rfl
  have hstarted := hsame Ticket.started rfl
  -- the other workers are at work on other tasks
  have hother : ∀ w' t', (p.workers w').task = some t' → w' ≠ w → t' ≠ t :=
    fun w' t' hw' e => h.task_ne (congrArg Stage.task hw) hw' e
  refine { h with pendingKey := ?_, owned := ?_, entries := ?_, queued := ?_, begun := ?_,
                  held := ?_, holds := ?_, delivers := ?_, exclusive := ?_, drained := ?_,
                  crew := ?_ }
  · intro k t' hp
    replace hp : Function.update p.pending (p.tickets t).key none k = some t' := hp
    rw [Function.update_apply] at hp
    split at hp
    · cases hp
    · next e =>
      obtain ⟨ht', hk', hc'⟩ := h.pendingKey k t' hp
      refine ⟨ht', ?_⟩
      show ((Function.update p.tickets t _) t').key = k ∧
        ((Function.update p.tickets t _) t').completed = false
      rw [hne t' fun e' => e (by rw [← hk', e'])]
      exact ⟨hk', hc'⟩
  · intro t' ht' hc'
    show Function.update p.pending (p.tickets t).key none
      ((Function.update p.tickets t _) t').key = some t'
    replace hc' : ((Function.update p.tickets t _) t').completed = false := hc'
    by_cases e : t' = t
    · rw [e, hself] at hc'
      cases hc'
    · rw [hne t' e] at hc' ⊢
      rw [Function.update_of_ne fun e' => e (h.unique ht' ht hc' hco e')]
      exact h.owned t' ht' hc'
  · intro e he
    refine ⟨(h.entries e he).1, Nat.le_trans (h.entries e he).2 (Nat.le_of_eq (hgen _).symm)⟩
  · intro t' ht' hs'
    show p.queue.filter (current t' ((Function.update p.tickets t _) t').generation) =
      [⟨t', ((Function.update p.tickets t _) t').rank,
        ((Function.update p.tickets t _) t').generation⟩]
    rw [hgen, hrank]
    exact h.queued t' ht' ((hstarted t').symm.trans hs')
  · intro t' ht' hc'
    refine (hstarted t').trans ?_
    replace hc' : ((Function.update p.tickets t _) t').completed = true := hc'
    by_cases e : t' = t
    · rw [e, hst]
    · rw [hne t' e] at hc'
      exact h.begun t' ht' hc'
  · intro t' ht' hs' hc'
    replace hc' : ((Function.update p.tickets t _) t').completed = false := hc'
    by_cases e : t' = t
    · rw [e, hself] at hc'
      cases hc'
    · rw [hne t' e] at hc'
      obtain ⟨w', hn, hw'⟩ := h.held t' ht' ((hstarted t').symm.trans hs') hc'
      refine ⟨w', hn, ?_⟩
      rw [setWorker_of_ne _ fun e' => by rw [e', hw] at hw'; exact e (Stage.holds.inj hw').symm]
      exact hw'
  · intro w' t' hw'
    rcases setWorker_cases hw' with ⟨-, e⟩ | ⟨e, hw'⟩
    · cases e
    · obtain ⟨ht', hs', hc'⟩ := h.holds w' t' hw'
      refine ⟨ht', (hstarted t').trans hs', ?_⟩
      show ((Function.update p.tickets t _) t').completed = false
      rw [hne t' (hother w' t' (by rw [show p.workers w' = _ from hw']; rfl) e)]
      exact hc'
  · intro w' t' r' rest hw'
    show t' < p.next ∧ ((Function.update p.tickets t _) t').completed = true
    rcases setWorker_cases hw' with ⟨-, e⟩ | ⟨e, hw'⟩
    · obtain ⟨rfl, -, -⟩ := Stage.delivers.inj e
      rw [hself]
      exact ⟨ht, rfl⟩
    · rw [hne t' (hother w' t' (by rw [show p.workers w' = _ from hw']; rfl) e)]
      exact h.delivers w' t' r' rest hw'
  · intro w₁ w₂ t' h₁ h₂
    have hset : ∀ w', ((p.setWorker w (.delivers t r (p.tickets t).callbacks)).workers w').task =
        (p.workers w').task := by
      intro w'
      by_cases e : w' = w
      · subst e
        rw [hw]
        show (Function.update p.workers w' _ w').task = _
        rw [Function.update_self]
        rfl
      · rw [setWorker_of_ne _ e]
    exact h.exclusive w₁ w₂ t' ((hset w₁).symm.trans h₁) ((hset w₂).symm.trans h₂)
  · intro w' hw'
    rcases setWorker_cases hw' with ⟨-, e⟩ | ⟨-, hw'⟩
    · cases e
    · exact h.drained w' hw'
  · intro w' hn
    rw [setWorker_of_ne _ fun e => by
      have hidle := h.crew w' hn
      rw [e, hw] at hidle
      cases hidle]
    exact h.crew w' hn

theorem settle {w t : Nat} {r : ρ} {rest : List Nat} (h : Linked n p)
    (hw : p.workers w = .delivers t r rest) : Linked n (p.setWorker w .idle) := by
  refine { h with held := ?_, holds := ?_, delivers := ?_, exclusive := ?_, drained := ?_,
                  crew := ?_ }
  · intro t' ht hst hc
    obtain ⟨w', hn, hw'⟩ := h.held t' ht hst hc
    refine ⟨w', hn, ?_⟩
    rw [setWorker_of_ne _ fun e => by rw [e, hw] at hw'; cases hw']
    exact hw'
  · intro w' t' hw'
    rcases setWorker_cases hw' with ⟨-, e⟩ | ⟨-, hw'⟩
    · cases e
    · exact h.holds w' t' hw'
  · intro w' t' r' rest' hw'
    rcases setWorker_cases hw' with ⟨-, e⟩ | ⟨-, hw'⟩
    · cases e
    · exact h.delivers w' t' r' rest' hw'
  · exact h.exclusive_setWorker fun w' t _ ht => by cases ht
  · intro w' hw'
    rcases setWorker_cases hw' with ⟨-, e⟩ | ⟨-, hw'⟩
    · cases e
    · exact h.drained w' hw'
  · intro w' hn
    by_cases e : w' = w
    · rw [e]
      exact Function.update_self ..
    · rw [setWorker_of_ne _ e]
      exact h.crew w' hn

end Linked

variable {n : Nat} {p q : Pool κ π ρ}

theorem linked_new (tickets : Nat → Ticket κ π) : Linked n (.new tickets : Pool κ π ρ) where
  pendingKey k t h := by cases h
  owned t ht := absurd ht (Nat.not_lt_zero t)
  entries e he := by cases he
  queued t ht := absurd ht (Nat.not_lt_zero t)
  begun t ht := absurd ht (Nat.not_lt_zero t)
  held t ht := absurd ht (Nat.not_lt_zero t)
  holds w t hw := by cases hw
  delivers w t r rest hw := by cases hw
  exclusive w w' t hw := by cases hw
  drained w hw := by cases hw
  crew w hw := rfl

theorem Step.linked [DecidableEq κ] (hs : Step n p q) (h : Linked n p) : Linked n q := by
  cases hs with
  | @accept k rank callback queue hk hs hq =>
    have h' := h.accept (if callback then [p.nextRequest] else []) hk hs hq
    exact { h' with }
  | @join k t callback hk =>
    have h' : Linked n (p.enlist (.shared t) callback) := { h with }
    exact h'.setCallbacks t _
  | requeue hk hs ht hq => exact h.requeue hk hs hq
  | acceptOwn => exact { h with }
  | stop => exact { h with drained := fun w hw => ⟨rfl, (h.drained w hw).2⟩ }
  | claim hw hi hq hstale hlive =>
    have h' := h.claim hw hi hq hstale hlive
    exact { h' with }
  | drain hstale => exact h.drain hstale
  | exit hw hi hs hq => exact h.exit hw hi hs hq
  | deliver hw => exact h.deliver hw
  | @call w t m r rest hw =>
    have h' : Linked n (p.setWorker w (.delivers t r rest)) := h.setWorker_same
      (by rw [hw]; rfl) (fun t' e => by cases e)
      (fun t' r' rest' e => by
        obtain ⟨rfl, rfl, rfl⟩ := Stage.delivers.inj e
        exact ⟨_, _, hw⟩)
      (fun t' e => by rw [hw] at e; cases e) (by simp)
      (fun hn => by have := h.crew w hn; rw [hw] at this; cases this)
    exact { h' with }
  | settle hw =>
    have h' := h.settle hw
    exact { h' with }
  | answer hc hr => split <;> exact { h with }
  | settleOwn hc => exact { h with }

end HyperMoE.Lib.Dispatch
