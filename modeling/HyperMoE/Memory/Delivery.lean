import HyperMoE.Memory.TransferProgress

/-!
# Every transfer is delivered once

* `Delivers`         what a client sees;
* `run_delivers`     it holds after every run, whatever the number of workers and the order of the
                     steps;
* `run_cancelled_asked`   a transfer is given up only on request.
-/

namespace HyperMoE.Memory

open Lib Lib.Fallible Storage

variable {env : Environment} {answers : Answers}

namespace TransferManager

variable {s s' : TransferManager}

/-! ## what a client sees -/

structure Delivers (env : Environment) (s : TransferManager) : Prop where
  /-- each accepted task is queued, with one worker, or resolved, and that once -/
  once : (s.queue.map Task.sequence ++ (s.workers.filterMap TransferManager.held ++
    s.resolved.map Prod.fst)).Perm (List.range s.accepted.length)
  /-- when the call that stopped the manager has returned, every promise was resolved -/
  joined : s.shutdowns.head? = some .returned →
    (s.resolved.map Prod.fst).Perm (List.range s.accepted.length)
  /-- no worker is stuck before every promise is resolved -/
  notStuck : Stuck env s → (s.resolved.map Prod.fst).Perm (List.range s.accepted.length)
  /-- one that has a task can go on, whatever it is answered and wherever the others are -/
  goesOn : ∀ w t, s.taskOf w = some t → ∀ answers, (s.work env w answers).isSome = true
  /-- its own steps bring it nearer to the promise, until it resolves it; the others' leave it -/
  nearer : ∀ a s' w t, step env a s = some s' → s.taskOf w = some t →
    if a.worker = some w then s'.left w < s.left w ∧
      (s'.taskOf w = some t ∨ ∃ o, s'.resolved = (t.sequence, o) :: s.resolved)
    else s'.workers[w]? = s.workers[w]?
  /-- the workers alone are stuck after so many steps -/
  bounded : ∀ as s', (∀ a ∈ as, a.worker.isSome = true) → run env s as = some s' →
    as.length ≤ s.owed
  /-- and then the call that stopped the manager can return -/
  returns : Stuck env s → s.stopping = true → ∀ call, s.shutdowns[call]? = some .joining →
    (s.join call).isSome = true
  outcome : ∀ n o, (n, o) ∈ s.resolved →
    ∃ t, s.accepted[n]? = some t ∧ Right env s.cancelled t o
  /-- nothing that may be copied, and no flag: an exception -/
  refuses : ∀ n o t, (n, o) ∈ s.resolved → s.accepted[n]? = some t →
    (¬ ∃ record bytes, Supplies env t.request record bytes) → n ∉ s.cancelled → ∃ e, o = .error e
  /-- a worker that takes a task takes the first in the order -/
  first : ∀ w s', s.take w = some s' → ∃ t ∈ s.queue, s'.workers = s.workers.set w (.popped t) ∧
    s'.queue = s.queue.erase t ∧ ∀ u ∈ s.queue, u ≠ t → Before t u

theorem Inv.first (h : Inv env s) {w : Nat} (htake : s.take w = some s') :
    ∃ t ∈ s.queue, s'.workers = s.workers.set w (.popped t) ∧ s'.queue = s.queue.erase t ∧
      ∀ u ∈ s.queue, u ≠ t → Before t u := by
  unfold take at htake
  split at htake
  · next t hw hbest =>
    obtain rfl := Option.some.inj htake
    refine ⟨t, best_mem hbest, rfl, rfl, fun u hu hne => higherPriority_iff.mp ?_⟩
    refine best_above (fun a b c hab hbc => ?_) (fun a ha b hb hab hlow => ?_) hbest u hu hne
    · exact higherPriority_iff.mpr
        ((higherPriority_iff.mp hbc).trans (higherPriority_iff.mp hab))
    · have hseq : b.sequence ≠ a.sequence := fun heq => by
        have hat := h.at_sequence (h.queued a ha)
        rw [← heq, h.at_sequence (h.queued b hb)] at hat
        exact hab (Option.some.inj hat).symm
      refine higherPriority_iff.mpr (before_total hseq fun hbefore => ?_)
      rw [higherPriority_iff.mpr hbefore] at hlow
      exact nomatch hlow
  · cases htake

theorem Inv.all_resolved (h : Inv env s) (hj : s.shutdowns.head? = some .returned) :
    (s.resolved.map Prod.fst).Perm (List.range s.accepted.length) := by
  have hexited := h.joined hj
  obtain ⟨stage, hstage⟩ := List.exists_mem_of_ne_nil _ h.crew
  have hempty : s.queue = [] := (h.exited (hexited stage hstage ▸ hstage)).2
  refine h.conserved.all_finished ?_ ?_
  · show s.queue.map Task.sequence = []
    rw [hempty]
    rfl
  · refine List.filterMap_eq_nil_iff.mpr fun x hx => ?_
    rw [hexited x hx]
    rfl

theorem Inv.refuses (h : Inv env s) {n : Nat} {o : Outcome} {t : Task} (ho : (n, o) ∈ s.resolved)
    (ht : s.accepted[n]? = some t)
    (hnone : ¬ ∃ record bytes, Supplies env t.request record bytes) (hflag : n ∉ s.cancelled) :
    ∃ e, o = .error e := by
  obtain ⟨t', ht', hright⟩ := h.outcomes n o ho
  obtain rfl := Option.some.inj (ht'.symm.trans ht)
  cases o with
  | error e => exact ⟨e, rfl⟩
  | ok result =>
    rcases hright with hintact | ⟨-, hmem⟩
    · obtain ⟨bytes, hsupplies, -⟩ := hintact.delivers
      exact absurd ⟨_, bytes, hsupplies⟩ hnone
    · exact absurd (h.numbered n t' ht' ▸ hmem) hflag

/-- one expert of two bytes -/
def sampleRecord : Storage.ExpertRecord := ⟨0, 0, 0, 2, 0, 0⟩

def sampleIndex : ExpertIndex := ⟨[sampleRecord], [], _, rfl⟩

def sampleEnvironment : Environment where
  loader := { store := ⟨"experts.bin", sampleIndex, ⟨[7, 9], by decide⟩, [123], by decide⟩ }
  backend := { address := 1 }

/-- from host memory into pinned memory -/
def sampleRequest : TransferRequest where
  layerId := 0
  expertId := 0
  destination := .PinnedRam
  source := .Ram
  hostBuffer := some [7, 9]

/-- whatever the number of workers and the order of the steps -/
theorem run_delivers {workerCount : Nat} {s₀ : TransferManager} {as : List Action}
    (hmake : make env workerCount = .ok s₀) (hrun : run env s₀ as = some s) : Delivers env s := by
  have h := run_inv hmake hrun
  exact
    { once := h.conserved
      joined := h.all_resolved
      notStuck := h.resolved_of_stuck
      goesOn := fun w t ht answers => work_isSome ht answers
      nearer := fun a s' w t hstep ht => by
        split
        · next ha => exact step_nearer hstep ha ht
        · next ha => exact step_elsewhere hstep ha
      bounded := fun as s' hworkers hrun => length_le_owed hworkers hrun
      returns := fun hstuck hstopping call hcall => h.join_of_stuck hstuck hstopping hcall
      outcome := h.outcomes
      refuses := fun n o t => h.refuses
      first := fun w s' => h.first }

/-- a delivery, and a shutdown that joins the worker -/
theorem run_delivers_pinned : ∃ s₀ s, make sampleEnvironment 1 = .ok s₀ ∧
    run sampleEnvironment s₀ ([.submit sampleRequest, .take 0] ++
      List.replicate 8 (.work 0 {}) ++ [.shutdown, .exit 0, .join 0]) = some s ∧
    s.shutdowns = [.returned] ∧ s.resolved.length = 1 ∧ Delivers sampleEnvironment s := by
  obtain ⟨s₀, s, hmake, hrun, hshutdowns, hresolved⟩ : ∃ s₀ s,
      make sampleEnvironment 1 = .ok s₀ ∧
      run sampleEnvironment s₀ ([.submit sampleRequest, .take 0] ++
        List.replicate 8 (.work 0 {}) ++ [.shutdown, .exit 0, .join 0]) = some s ∧
      s.shutdowns = [.returned] ∧ s.resolved.length = 1 := ⟨_, _, rfl, rfl, rfl, rfl⟩
  exact ⟨s₀, s, hmake, hrun, hshutdowns, hresolved, run_delivers hmake hrun⟩

/-- a second call of `shutdown` returns while the first one waits for the worker -/
theorem not_resolved_when_shutdown_returns : ¬ ∀ (env : Environment) (workerCount : Nat)
    (s₀ s : TransferManager) (as : List Action), make env workerCount = .ok s₀ →
    run env s₀ as = some s → .returned ∈ s.shutdowns →
    (s.resolved.map Prod.fst).Perm (List.range s.accepted.length) := by
  intro h
  have hperm := h sampleEnvironment 1 _ _ [.submit sampleRequest, .take 0, .shutdown, .shutdown]
    rfl rfl (by decide)
  exact absurd hperm.length_eq (by decide)

/-- only `cancel` and `shutdown` set a flag -/
theorem step_flags {a : Action} (h : step env a s = some s') (hstop : a ≠ .shutdown) :
    s'.cancelled = s.cancelled ∨ ∃ n, a = .cancel n ∧ s'.cancelled = n :: s.cancelled := by
  cases a with
  | submit r =>
    rcases step_submit h with rfl | ⟨-, rfl⟩
    · exact .inl rfl
    · exact .inl rfl
  | cancel n =>
    unfold step at h
    dsimp only at h
    split at h
    · obtain rfl := Option.some.inj h
      exact .inr ⟨n, rfl, rfl⟩
    · cases h
  | take w =>
    replace h : s.take w = some s' := h
    unfold take at h
    split at h
    · obtain rfl := Option.some.inj h
      exact .inl rfl
    · cases h
  | work w answers =>
    replace h : s.work env w answers = some s' := h
    unfold work at h
    cases hw : s.workers[w]? with
    | none =>
      rw [hw] at h
      cases h
    | some stage =>
      rw [hw] at h
      cases stage with
      | waiting => cases h
      | exited => cases h
      | _ =>
        obtain rfl := Option.some.inj h
        exact .inl rfl
  | exit w =>
    replace h : s.exit w = some s' := h
    unfold exit at h
    split at h
    · split at h
      · obtain rfl := Option.some.inj h
        exact .inl rfl
      · cases h
    · cases h
  | shutdown => exact absurd rfl hstop
  | join call =>
    replace h : s.join call = some s' := h
    unfold join at h
    split at h
    · obtain rfl := Option.some.inj h
      exact .inl rfl
    · cases h

/-- a transfer is given up only on request: `cancel` on its handle, or `shutdown` -/
theorem run_cancelled_asked {workerCount : Nat} {s₀ : TransferManager} {as : List Action} {n : Nat}
    (hmake : make env workerCount = .ok s₀) (hrun : run env s₀ as = some s)
    (ho : (n, .ok cancelledResult) ∈ s.resolved) : .cancel n ∈ as ∨ .shutdown ∈ as := by
  have hinv := run_inv hmake hrun
  obtain ⟨t, ht, hright⟩ := hinv.outcomes n _ ho
  have hflag : n ∈ s.cancelled := by
    rcases hright with hintact | ⟨-, hmem⟩
    · exact nomatch hintact.status
    · exact hinv.numbered n t ht ▸ hmem
  have hnone : s₀.cancelled = [] := by
    obtain ⟨-, hmake⟩ := Outcome.throwIf_bind_eq_ok.mp hmake
    obtain ⟨-, hmake⟩ := Outcome.throwIf_bind_eq_ok.mp hmake
    obtain ⟨-, hmake⟩ := Outcome.throwIf_bind_eq_ok.mp hmake
    rw [← Except.ok.inj hmake]
  -- a flag that is set now and was not at the beginning was set by a step
  have hset : ∀ (as : List Action) (s₁ : TransferManager), run env s₁ as = some s →
      n ∈ s₁.cancelled ∨ .cancel n ∈ as ∨ .shutdown ∈ as := by
    intro as
    induction as with
    | nil =>
      intro s₁ h
      exact .inl (Option.some.inj h ▸ hflag)
    | cons a as ih =>
      intro s₁ h
      cases ha : step env a s₁ with
      | none =>
        unfold run Runs.run at h
        rw [ha] at h
        cases h
      | some s₂ =>
        by_cases hstop : a = .shutdown
        · exact .inr (.inr (hstop ▸ List.mem_cons_self))
        · have hrest : run env s₂ as = some s := (Runs.run_cons as ha).symm.trans h
          rcases ih s₂ hrest with hmem | hc | hs
          · rcases step_flags ha hstop with hsame | ⟨m, rfl, hnew⟩
            · exact .inl (hsame ▸ hmem)
            · rw [hnew] at hmem
              rcases List.mem_cons.mp hmem with rfl | hmem
              · exact .inr (.inl List.mem_cons_self)
              · exact .inl hmem
          · exact .inr (.inl (.tail _ hc))
          · exact .inr (.inr (.tail _ hs))
  exact (hset as s₀ hrun).resolve_left (by rw [hnone]; exact List.not_mem_nil)

/-- no stream and no event outlives the turn that made it -/
theorem run_releases {workerCount : Nat} {s₀ : TransferManager} {as : List Action}
    (hmake : make env workerCount = .ok s₀) (hrun : run env s₀ as = some s) :
    s.streams.openStreams = 0 ∧ s.streams.openEvents = 0 := (run_inv hmake hrun).handles

end TransferManager

end HyperMoE.Memory
