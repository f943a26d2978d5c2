import HyperMoE.Lib.Weight
import HyperMoE.Scheduler.Speculation

/-!
# Speculative ownership is bounded

The loop that bounds what is retained for prefetched experts runs when a prefetch completes.  Two
other places add to what it bounds: a prefetch that is answered at once, and a transfer of a marked
expert that is no prefetch.  While neither of them adds more than the bound has room for, and the loop
is not left by an exception, the bound holds whenever no worker is in the loop.

* `sizes`, `speculativeBytes`   what is retained for the marked experts;
* `Accounted`                   the condition;
* `Bounded`                     the property of a state;
* `Restores`                    what the loop has counted, and what is still to come;
* `run_bounded`                 every run whose steps all meet the condition.
-/

namespace HyperMoE.Scheduler

open Lib

variable {cfg : SchedulerConfig} {s s' : Scheduler} {a : Action}

/-- the bytes that are retained for each expert -/
def sizes (residentTransfers : ExpertKey → Option TransferResult) (k : ExpertKey) : Nat :=
  (residentTransfers k).elim 0 fun r => r.record.size

def speculativeBytes (s : Scheduler) : Nat := weight (sizes s.residentTransfers) s.prefetchedReady

/-! ## the condition -/

/-- a prefetch that is answered at once marks an expert only if the bound has room for what was
retained for somebody else -/
def marksWithin (cfg : SchedulerConfig) (s : Scheduler) (request : ScheduleRequest) : Bool :=
  request.isPrefetch = false ∨ request.key ∈ s.prefetchedReady ∨
    s.speculativeBytes + sizes s.residentTransfers request.key ≤ cfg.maximumPrefetchBytes ∨
    (s.states request.key).all fun e =>
      immediatelyReady request e (s.pendingByExpert request.key) = false

/-- a transfer of a marked expert that does not count as speculative fits in place of the one that it
replaces -/
def recordsWithin (cfg : SchedulerConfig) (s : Scheduler) (t : TaskId) (r : TransferResult) : Bool :=
  speculative (s.tasks t) = true ∨ (s.tasks t).key ∉ s.prefetchedReady ∨
    (s.tasks t).request.destination = .Nvme ∨
    s.speculativeBytes + r.record.size ≤
      cfg.maximumPrefetchBytes + sizes s.residentTransfers (s.tasks t).key

/-- a round of the loop that drops an expert finds a record that can be reconciled -/
def dropsFreely (cfg : SchedulerConfig) (s : Scheduler) (loop : Trimming) : Bool :=
  match loop.candidates with
  | [] => true
  | c :: _ => c = (s.tasks loop.task).key ∨
      (s.residentTransfers c).all (fun found => fits cfg loop.cachedBytes found) = true ∨
      (s.states c).any (fun e => reconcilable e.state) = true

/-- the round of a worker -/
def roundAccounted (cfg : SchedulerConfig) (s : Scheduler) : WorkerPc → Bool
  | .ready t r => recordsWithin cfg s t r
  | .trimming t _ cachedBytes candidates => dropsFreely cfg s ⟨t, cachedBytes, candidates⟩
  | _ => true

def Accounted (cfg : SchedulerConfig) (s : Scheduler) : Action → Bool
  | .work w _ => roundAccounted cfg s (s.workers w)
  | a => (a.request cfg).all (marksWithin cfg s)

/-! ## the property -/

/-- outside of the loop that restores the bound -/
def Bounded (cfg : SchedulerConfig) (s : Scheduler) : Prop :=
  (∀ w, s.lock ≠ some (.worker w)) → s.speculativeBytes ≤ cfg.maximumPrefetchBytes

/-- `maximumPrefetchBytes_ - cachedBytes` does not wrap -/
def NoWrap (cfg : SchedulerConfig) (s : Scheduler) : Prop :=
  ∀ w t r cachedBytes candidates, s.workers w = .trimming t r cachedBytes candidates →
    cachedBytes ≤ cfg.maximumPrefetchBytes

/-! ## the subtraction -/

/-- the loop has counted no more than the bound -/
def Counted (cfg : SchedulerConfig) (l : Ledger) : Prop :=
  ∀ w loop, l.trimming w = some loop → loop.cachedBytes ≤ cfg.maximumPrefetchBytes

theorem LedgerStep.counted {l : Ledger} (h : LedgerStep cfg s a l) (hs : Counted cfg s.ledger) :
    Counted cfg l := by
  have hupdate : ∀ {w₁ : WorkerId} {new : Option Trimming},
      (∀ loop, new = some loop → loop.cachedBytes ≤ cfg.maximumPrefetchBytes) →
      ∀ w loop, Function.update s.ledger.trimming w₁ new w = some loop →
        loop.cachedBytes ≤ cfg.maximumPrefetchBytes := by
    intro w₁ new hnew w loop hw
    rw [Function.update_apply] at hw
    split at hw
    · exact hnew loop hw
    · exact hs w loop hw
  cases h
  case bounds =>
    apply hupdate
    rintro loop ⟨⟩
    exact Nat.zero_le _
  case skips w outcome t cachedBytes c rest hw hf =>
    apply hupdate
    rintro loop ⟨⟩
    exact hs w ⟨t, cachedBytes, c :: rest⟩ hw
  case keeps w outcome t cachedBytes c rest found hw hf hx =>
    apply hupdate
    rintro loop ⟨⟩
    have hfits : found.record.size ≤ cfg.maximumPrefetchBytes - cachedBytes := of_decide_eq_true hx
    have hcounted : cachedBytes ≤ cfg.maximumPrefetchBytes :=
      hs w ⟨t, cachedBytes, c :: rest⟩ hw
    show cachedBytes + found.record.size ≤ _
    omega
  case drops w outcome t cachedBytes c rest found hw hf hx =>
    apply hupdate
    rintro loop ⟨⟩
    exact hs w ⟨t, cachedBytes, c :: rest⟩ hw
  case dropRefused => exact hupdate fun _ h => nomatch h
  case trimmed => exact hupdate fun _ h => nomatch h
  all_goals exact hs

/-! ## the bound -/

def Ledger.bytes (l : Ledger) : Nat := weight (sizes l.residentTransfers) l.prefetchedReady

/-- the bound holds, or a worker is in the loop: what it has counted and the candidates that are left
are all that there is -/
structure Restores (cfg : SchedulerConfig) (l : Ledger) : Prop where
  nodup : l.prefetchedReady.Nodup
  free : (∀ w, l.lock ≠ some (.worker w)) → l.bytes ≤ cfg.maximumPrefetchBytes
  loop : ∀ w loop, l.trimming w = some loop → loop.candidates.Nodup ∧
    loop.candidates ⊆ l.prefetchedReady ∧
    l.bytes ≤ loop.cachedBytes + weight (sizes l.residentTransfers) loop.candidates

theorem sizes_update (residentTransfers : ExpertKey → Option TransferResult) (k : ExpertKey)
    (r : Option TransferResult) : sizes (Function.update residentTransfers k r) =
      Function.update (sizes residentTransfers) k (r.elim 0 fun r => r.record.size) := by
  funext k'
  unfold sizes
  rw [Function.update_apply, Function.update_apply]
  split <;> rfl

theorem sizes_some {residentTransfers : ExpertKey → Option TransferResult} {k : ExpertKey}
    {r : TransferResult} (h : residentTransfers k = some r) :
    sizes residentTransfers k = r.record.size := by
  unfold sizes
  rw [h]
  rfl

theorem sizes_none {residentTransfers : ExpertKey → Option TransferResult} {k : ExpertKey}
    (h : residentTransfers k = none) : sizes residentTransfers k = 0 := by
  unfold sizes
  rw [h]
  rfl

/-- a worker in the loop has `mutex_` -/
theorem lock_of_trimming (hs : Sound cfg s) {w : WorkerId} {loop : Trimming}
    (hw : trimming (s.workers w) = some loop) : s.lock = some (.worker w) := by
  refine (hs.tracked.locked w).mpr ?_
  show trims (s.workers w) = true
  cases hpc : s.workers w with
  | trimming t r cachedBytes candidates => rfl
  | _ =>
    rw [hpc] at hw
    exact nomatch hw

namespace Restores

variable {l : Ledger}

/-- outside of the loop, within the bound -/
theorem within (hs : Sound cfg s) (hl : ∀ w, s.lock ≠ some (.worker w))
    (hnodup : l.prefetchedReady.Nodup) (htrim : l.trimming = s.ledger.trimming)
    (hbytes : l.bytes ≤ cfg.maximumPrefetchBytes) : Restores cfg l where
  nodup := hnodup
  free _ := hbytes
  loop w loop hw := by
    rw [htrim] at hw
    exact absurd (lock_of_trimming hs hw) (hl w)

/-- outside of the loop, with fewer bytes -/
theorem outside (hs : Sound cfg s) (hl : ∀ w, s.lock ≠ some (.worker w)) (h : Restores cfg s.ledger)
    (hnodup : l.prefetchedReady.Nodup) (htrim : l.trimming = s.ledger.trimming)
    (hbytes : l.bytes ≤ s.ledger.bytes) : Restores cfg l :=
  within hs hl hnodup htrim (Nat.le_trans hbytes (h.free hl))

/-- a round of the loop -/
theorem round (hs : Sound cfg s) {w : WorkerId} {loop new : Trimming}
    (hw : trimming (s.workers w) = some loop) (hl : l.lock = s.lock)
    (htrim : l.trimming = Function.update s.ledger.trimming w (some new))
    (hnodup : l.prefetchedReady.Nodup)
    (hnew : new.candidates.Nodup ∧ new.candidates ⊆ l.prefetchedReady ∧
      l.bytes ≤ new.cachedBytes + weight (sizes l.residentTransfers) new.candidates) :
    Restores cfg l where
  nodup := hnodup
  free hfree := absurd (hl.trans (lock_of_trimming hs hw)) (hfree w)
  loop w' loop' hw' := by
    rw [htrim, Function.update_apply] at hw'
    split at hw'
    · obtain rfl := Option.some.inj hw'
      exact hnew
    · next hne =>
      have hlock := lock_of_trimming hs (w := w') hw'
      rw [lock_of_trimming hs hw] at hlock
      exact absurd (Holder.worker.inj (Option.some.inj hlock)).symm hne

end Restores

/-! ## what the condition says at each place -/

theorem marks_size {request : ScheduleRequest} {e : ExpertState} (hacc : Accounted cfg s a = true)
    (hq : a.request cfg = some request) (he : s.states request.key = some e)
    (hp : request.isPrefetch = true)
    (hi : immediatelyReady request e (s.pendingByExpert request.key) = true)
    (hk : request.key ∉ s.prefetchedReady) :
    s.speculativeBytes + sizes s.residentTransfers request.key ≤ cfg.maximumPrefetchBytes := by
  have hmarks : marksWithin cfg s request = true := by
    cases a
    case schedule q callback =>
      obtain rfl := Option.some.inj hq
      exact hacc
    case prefetch prediction callback =>
      obtain rfl := Option.some.inj hq
      exact hacc
    all_goals exact nomatch hq
  rcases of_decide_eq_true hmarks with h | h | h | h
  · exact nomatch hp.symm.trans h
  · exact absurd h hk
  · exact h
  · rw [he] at h
    exact nomatch hi.symm.trans (of_decide_eq_true h)

theorem records_size {w : WorkerId} {outcome : TransferOutcome} {t : TaskId} {r : TransferResult}
    (hacc : Accounted cfg s (.work w outcome) = true) (hw : s.workers w = .ready t r)
    (ht : speculative (s.tasks t) = false) : (s.tasks t).key ∉ s.prefetchedReady ∨
      (s.tasks t).request.destination = .Nvme ∨
      s.speculativeBytes + r.record.size ≤
        cfg.maximumPrefetchBytes + sizes s.residentTransfers (s.tasks t).key := by
  replace hacc : roundAccounted cfg s (s.workers w) = true := hacc
  rw [hw] at hacc
  rcases of_decide_eq_true hacc with h | h | h | h
  · exact nomatch ht.symm.trans h
  · exact .inl h
  · exact .inr (.inl h)
  · exact .inr (.inr h)

theorem drops_refused {w : WorkerId} {outcome : TransferOutcome} {t : TaskId} {cachedBytes : Nat}
    {c : ExpertKey} {rest : List ExpertKey} {found : TransferResult}
    (hw : trimming (s.workers w) = some ⟨t, cachedBytes, c :: rest⟩)
    (hf : s.residentTransfers c = some found) (hx : fits cfg cachedBytes found = false)
    (hc : c ≠ (s.tasks t).key) (hr : ∀ e, s.states c = some e → ¬ reconcilable e.state) :
    ¬ Accounted cfg s (.work w outcome) = true := by
  intro hacc
  replace hacc : roundAccounted cfg s (s.workers w) = true := hacc
  cases hpc : s.workers w with
  | trimming t' r n candidates =>
    rw [hpc] at hw hacc
    obtain ⟨rfl, rfl, rfl⟩ := Trimming.mk.inj (Option.some.inj hw)
    rcases of_decide_eq_true hacc with h | h | h
    · exact hc h
    · rw [hf] at h
      exact nomatch hx.symm.trans h
    · obtain ⟨e, he, hrec⟩ := Option.any_eq_true _ _ |>.mp h
      exact hr e he (of_decide_eq_true hrec)
  | _ =>
    rw [hpc] at hw
    exact nomatch hw

theorem LedgerStep.restores {l : Ledger} (hs : Sound cfg s) (h : LedgerStep cfg s a l)
    (hacc : Accounted cfg s a = true) (hcounted : Counted cfg s.ledger)
    (i : Restores cfg s.ledger) : Restores cfg l := by
  have hnodup := h.nodup i.nodup
  have hfree : s.lock = none → ∀ w, s.lock ≠ some (.worker w) := fun hl w => by rw [hl]; simp
  -- a transfer is given up, with its mark or without it
  have hforgets : ∀ k, sizes (Function.update s.residentTransfers k none) =
      Function.update (sizes s.residentTransfers) k 0 := fun k => sizes_update _ k none
  have hless : ∀ k, weight (sizes (Function.update s.residentTransfers k none)) s.prefetchedReady ≤
      s.ledger.bytes := by
    intro k
    rw [hforgets]
    exact weight_update_le _ (Nat.zero_le _) _
  have hlessErased : ∀ k, weight (sizes (Function.update s.residentTransfers k none))
      (s.prefetchedReady.erase k) ≤ s.ledger.bytes :=
    fun k => Nat.le_trans (weight_erase_le ..) (hless k)
  have hexpiring : ∀ {layerId : LayerId} {keys : List ExpertKey} {wasted : Nat},
      s.lock = some (.expiring layerId keys wasted) → ∀ w, s.lock ≠ some (.worker w) :=
    fun hl w => by rw [hl]; simp
  cases h
  case same => exact i
  case unmarks hl _ => exact .outside hs (hfree hl) i hnodup rfl (weight_erase_le ..)
  case marks request e hl he hp hi hq =>
    by_cases hk : request.key ∈ s.prefetchedReady
    · refine .outside hs (hfree hl) i hnodup rfl ?_
      show weight (sizes s.residentTransfers) (s.prefetchedReady.insert request.key) ≤ _
      rw [List.insert_of_mem hk]
      exact Nat.le_refl _
    · refine .within hs (hfree hl) hnodup rfl ?_
      show weight (sizes s.residentTransfers) (s.prefetchedReady.insert request.key) ≤ _
      rw [weight_insert _ hk, Nat.add_comm]
      exact marks_size hacc hq he hp hi hk
  case acknowledges hl => exact .outside hs (hfree hl) i hnodup rfl (hlessErased _)
  case expireBegins hl _ => exact .outside hs (hfree hl) i hnodup rfl (Nat.le_refl _)
  case expireKeeps hl _ => exact .outside hs (hexpiring hl) i hnodup rfl (Nat.le_refl _)
  case expires hl _ => exact .outside hs (hexpiring hl) i hnodup rfl (hlessErased _)
  case expireRefused hl _ _ => exact .outside hs (hexpiring hl) i hnodup rfl (hless _)
  case expireEnds hl => exact .outside hs (hexpiring hl) i hnodup rfl (Nat.le_refl _)
  case records w outcome t r hw hl ht =>
    by_cases hk : (s.tasks t).key ∈ s.prefetchedReady
    · by_cases hnvme : (s.tasks t).request.destination = .Nvme
      · refine .outside hs (hfree hl) i hnodup rfl ?_
        rw [if_pos hnvme]
        exact hless _
      · have hroom := (((records_size hacc hw ht).resolve_left fun hno => hno hk).resolve_left hnvme)
        have hnew := weight_update_of_mem (sizes s.residentTransfers) r.record.size hk i.nodup
        refine .within hs (hfree hl) hnodup rfl ?_
        show weight (sizes (Function.update s.residentTransfers _ _)) s.prefetchedReady ≤ _
        rw [if_neg hnvme, sizes_update]
        unfold speculativeBytes at hroom
        show weight (Function.update _ _ r.record.size) _ ≤ _
        omega
    · refine .outside hs (hfree hl) i hnodup rfl ?_
      show weight (sizes (Function.update s.residentTransfers _ _)) s.prefetchedReady ≤
        weight (sizes s.residentTransfers) s.prefetchedReady
      rw [sizes_update]
      exact Nat.le_of_eq (weight_update_of_notMem _ _ hk)
  case bounds w outcome t r hw hl ht =>
    refine ⟨hnodup, fun hno => absurd rfl (hno w), fun w' loop hw' => ?_⟩
    replace hw' : Function.update s.ledger.trimming w (some _) w' = some loop := hw'
    rw [Function.update_apply] at hw'
    split at hw'
    · obtain rfl := Option.some.inj hw'
      have hperm := List.perm_insertionSort keyLe (s.prefetchedReady.insert (s.tasks t).key)
      refine ⟨hperm.nodup_iff.mpr hnodup, fun k hk => hperm.mem_iff.mp hk, ?_⟩
      rw [Nat.zero_add, weight_perm _ hperm]
      exact Nat.le_refl _
    · exact absurd (lock_of_trimming hs hw') (hfree hl w')
  case skips w outcome t cachedBytes c rest hw hf =>
    obtain ⟨hnd, hsub, hbytes⟩ := i.loop w _ hw
    refine .round hs hw rfl rfl hnodup ⟨(List.nodup_cons.mp hnd).2,
      fun k hk => hsub (List.mem_cons_of_mem c hk), ?_⟩
    replace hbytes : s.ledger.bytes ≤ cachedBytes + weight (sizes s.residentTransfers) (c :: rest) :=
      hbytes
    rwa [weight_cons, sizes_none hf, Nat.zero_add] at hbytes
  case keeps w outcome t cachedBytes c rest found hw hf hx =>
    obtain ⟨hnd, hsub, hbytes⟩ := i.loop w _ hw
    refine .round hs hw rfl rfl hnodup ⟨(List.nodup_cons.mp hnd).2,
      fun k hk => hsub (List.mem_cons_of_mem c hk), ?_⟩
    replace hbytes : s.ledger.bytes ≤ cachedBytes + weight (sizes s.residentTransfers) (c :: rest) :=
      hbytes
    rwa [weight_cons, sizes_some hf, ← Nat.add_assoc] at hbytes
  case drops w outcome t cachedBytes c rest found hw hf hx =>
    obtain ⟨hnd, hsub, hbytes⟩ := i.loop w _ hw
    obtain ⟨hnot, hrest⟩ := List.nodup_cons.mp hnd
    have hmark : c ∈ s.prefetchedReady := hsub List.mem_cons_self
    have hmarks : s.prefetchedReady.Nodup := i.nodup
    refine .round hs hw rfl rfl hnodup ⟨hrest, fun k hk => ?_, ?_⟩
    · show k ∈ s.prefetchedReady.erase c
      rw [hmarks.mem_erase_iff]
      exact ⟨fun h => hnot (h ▸ hk), hsub (List.mem_cons_of_mem c hk)⟩
    · show weight (sizes (Function.update s.residentTransfers c none)) (s.prefetchedReady.erase c) ≤
        cachedBytes + weight (sizes (Function.update s.residentTransfers c none)) rest
      have hgone : c ∉ s.prefetchedReady.erase c := fun h => (hmarks.mem_erase_iff.mp h).1 rfl
      have herase := weight_erase (sizes s.residentTransfers) hmark
      replace hbytes : weight (sizes s.residentTransfers) s.prefetchedReady ≤
        cachedBytes + weight (sizes s.residentTransfers) (c :: rest) := hbytes
      rw [weight_cons] at hbytes
      rw [hforgets, weight_update_of_notMem _ _ hgone, weight_update_of_notMem _ _ hnot]
      omega
  case dropRefused w outcome t cachedBytes c rest found hw hf hx hc hr =>
    exact absurd hacc (drops_refused hw hf hx hc hr)
  case trimmed w outcome t cachedBytes hw =>
    obtain ⟨-, -, hbytes⟩ := i.loop w _ hw
    refine ⟨hnodup, fun _ => Nat.le_trans hbytes ?_, fun w' loop hw' => ?_⟩
    · exact hcounted w _ hw
    · replace hw' : Function.update s.ledger.trimming w none w' = some loop := hw'
      rw [Function.update_apply] at hw'
      split at hw'
      · exact nomatch hw'
      · next hne =>
        have hlock := (lock_of_trimming hs hw).symm.trans (lock_of_trimming hs hw')
        exact absurd (Holder.worker.inj (Option.some.inj hlock)).symm hne

/-! ## runs -/

theorem counted_of_run {as : List Action} (hr : run cfg as = some s) : Counted cfg s.ledger := by
  have hkeeps : ∀ s a s', step cfg a s = some s' → Sound cfg s ∧ Counted cfg s.ledger →
      Sound cfg s' ∧ Counted cfg s'.ledger :=
    fun _ _ _ ha hi => ⟨step_sound hi.1 ha, (step_ledger hi.1 ha).counted hi.2⟩
  exact (Runs.run_invariant hkeeps ⟨new_sound, fun _ _ h => nomatch h⟩ hr).2

theorem new_restores : Restores cfg ({} : Scheduler).ledger where
  nodup := List.nodup_nil
  free _ := Nat.zero_le _
  loop _ _ h := nomatch h

/-- what a state owes to the run that led to it -/
structure Restored (cfg : SchedulerConfig) (s : Scheduler) : Prop where
  sound : Sound cfg s
  counted : Counted cfg s.ledger
  restores : Restores cfg s.ledger

theorem Restored.step (h : Restored cfg s) (hacc : Accounted cfg s a = true)
    (ha : step cfg a s = some s') : Restored cfg s' := by
  have hledger := step_ledger h.sound ha
  exact ⟨step_sound h.sound ha, hledger.counted h.counted,
    hledger.restores h.sound hacc h.counted h.restores⟩

theorem run_bounded {as : List Action} (hr : run cfg as = some s) : NoWrap cfg s ∧
    (Runs.Along (step cfg) (fun s a _ => Accounted cfg s a = true) {} as → Bounded cfg s) := by
  constructor
  · intro w t r cachedBytes candidates hw
    have hloop : s.ledger.trimming w = some ⟨t, cachedBytes, candidates⟩ := by
      show trimming (s.workers w) = _
      rw [hw]
      rfl
    exact counted_of_run hr w _ hloop
  · intro hacc
    have hkeeps : ∀ s a s', step cfg a s = some s' → Accounted cfg s a = true →
        Restored cfg s → Restored cfg s' := fun _ _ _ ha hc h => h.step hc ha
    have hnew : Restored cfg {} := ⟨new_sound, fun _ _ h => (nomatch h), new_restores⟩
    exact (Runs.run_keeps hkeeps as {} s hacc hnew hr).restores.free

/-- speculation may hold 10 bytes in RAM -/
theorem tenBytes_valid : (MemoryTier.Ram = .Ram ∨ MemoryTier.Ram = .Vram) ∧ 10 ≠ 0 := by decide

def tenBytes : SchedulerConfig where
  workerCount := 1
  prefetchDestination := .Ram
  maximumPrefetchBytes := 10
  hasWorker := Nat.one_ne_zero
  validPrefetch := tenBytes_valid

def sized (k : ExpertKey) (size : Nat) : TransferResult where
  status := .Completed
  record := ⟨k.1, k.2, 0, size⟩
  buffer := some ⟨k.2, List.replicate size 0, true⟩
  destination := .Ram

/-- the one worker takes a task through all its stages, with `rounds` rounds of the loop -/
def brings (r : TransferResult) (rounds : Nat) : List Action :=
  .work 0 (.error .outOfFuel) :: .work 0 (.error .outOfFuel) :: .work 0 (.ok r) ::
    List.replicate (rounds + 5) (.work 0 (.error .outOfFuel))

/-- the second of two prefetches does not fit beside the first -/
def twoPrefetches : List Action :=
  .registerExpert (0, 1) .Nvme :: .registerExpert (0, 2) .Nvme ::
    .prefetch ⟨0, 1, 1, 1⟩ false :: brings (sized (0, 1) 6) 2 ++
    .prefetch ⟨0, 2, 1, 1⟩ false :: brings (sized (0, 2) 6) 3

theorem run_bounded_two_prefetches : ∃ s, run tenBytes twoPrefetches = some s ∧
    s.prefetchedReady = [(0, 1)] ∧ s.speculativeBytes = 6 ∧ s.lock = none ∧
    NoWrap tenBytes s ∧ Bounded tenBytes s := by
  have hall : (run tenBytes twoPrefetches).any (fun s => s.prefetchedReady = [(0, 1)] ∧
      s.speculativeBytes = 6 ∧ s.lock = none ∧
      Runs.Along (step tenBytes) (fun s a _ => Accounted tenBytes s a = true) {} twoPrefetches) =
        true := by
    decide +kernel
  obtain ⟨s, hr, hall⟩ := Option.any_eq_true _ _ |>.mp hall
  obtain ⟨hmarks, hbytes, hlock, hacc⟩ := of_decide_eq_true hall
  obtain ⟨hwrap, hbounded⟩ := run_bounded hr
  exact ⟨s, hr, hmarks, hbytes, hlock, hwrap, hbounded hacc⟩

/-- a demand is loaded and not adopted, and then predicted: its transfer is marked as it is -/
def predictedLate : List Action :=
  .registerExpert (0, 1) .Nvme :: .schedule { expertId := 1, destination := .Ram } false ::
    brings (sized (0, 1) 20) 0 ++ [.prefetch ⟨0, 1, 1, 1⟩ false]

theorem not_bounded_predicted_late :
    ¬ ∀ as s, run tenBytes as = some s → NoWrap tenBytes s ∧ Bounded tenBytes s := by
  have hall : (run tenBytes predictedLate).any (fun s => s.speculativeBytes = 20 ∧ s.lock = none) =
      true := by
    decide +kernel
  intro h
  obtain ⟨s, hr, hall⟩ := Option.any_eq_true _ _ |>.mp hall
  obtain ⟨hbytes, hlock⟩ := of_decide_eq_true hall
  have hbounded := (h predictedLate s hr).2 (fun w hw => nomatch hlock.symm.trans hw)
  rw [hbytes] at hbounded
  exact absurd hbounded (by decide)

end HyperMoE.Scheduler
