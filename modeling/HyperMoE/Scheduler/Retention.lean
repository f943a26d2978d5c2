import HyperMoE.Scheduler.Isolation

/-!
# A ready expert has its data

The state machine and the table of retained transfers change in separate sections.  While no round
gives up the transfer of an expert that stays ready above NVMe, and no caller that was answered at
once is overtaken by another transfer of its expert, the table has the transfer that brought a ready
expert where it is, and every success carries the buffer that was asked for.  Between the section
that marks the expert ready and the section that records its transfer, the worker has it.

* `forgets`, `records`   what a step does to the retained transfers;
* `OwnPlace`             nobody but the scheduler says where the expert is;
* `Keeps`                the step takes nothing from a ready expert, nor from a caller under way;
* `TransferRecorded`     no worker stands between the two sections of a task of the expert;
* `Retained`, `Delivered`, `ReadyHasData`   the property;
* `InHand`               what holds between the two sections;
* `run_readyHasData`     all of it, after every run whose steps meet the conditions.
-/

namespace HyperMoE.Scheduler

open Lib Lib.Fallible

variable {cfg : SchedulerConfig} {s s' : Scheduler} {c : Core} {k : ExpertKey}

/-! ## the conditions -/

/-- the expert whose retained transfer the step gives up -/
def forgets (cfg : SchedulerConfig) (s : Scheduler) : Action → Option ExpertKey
  | .acknowledgeResidency k _ => some k
  | .expireNext => match s.lock with
    | some (.expiring layerId (k :: _) _) => if k.1 < layerId then some k else none
    | _ => none
  | .work w _ => match s.workers w with
    | .trimming _ _ cachedBytes (k :: _) => match s.residentTransfers k with
      | some found => if fits cfg cachedBytes found then none else some k
      | none => none
    | _ => none
  | _ => none

/-- the expert and the tier of the transfer that the step records -/
def records (s : Scheduler) : Action → Option (ExpertKey × MemoryTier)
  | .work w _ => match s.workers w with
    | .ready t _ => some ((s.tasks t).key, (s.tasks t).request.destination)
    | _ => none
  | _ => none

/-- the round is one of the expert's own task -/
def ownRound (s : Scheduler) (k : ExpertKey) : Action → Bool
  | .work w _ => match s.workers w with
    | .trimming t _ _ _ => (s.tasks t).key = k
    | _ => false
  | _ => false

/-- the expert is registered on NVMe, and only the scheduler moves it -/
def OwnPlace (k : ExpertKey) : Action → Bool
  | .registerExpert k' location => k' ≠ k ∨ location = .Nvme
  | .acknowledgeResidency k' _ => k' ≠ k
  | .reconcileResidency k' _ => k' ≠ k
  | _ => true

/-- a round that gives up the expert's transfer finds the expert on NVMe, or ready and sends it back
there, or neither ready nor in use -/
def takesNothing (cfg : SchedulerConfig) (k : ExpertKey) (s : Scheduler) (a : Action) : Bool :=
  forgets cfg s a ≠ some k ∨ (s.states k).all fun e => e.currentLocation = .Nvme ∨
    (e.state = .Ready ∧ ownRound s k a = false) ∨ (e.state ≠ .Ready ∧ e.state ≠ .InUse)

/-- no caller that still has to look for the expert's transfer finds it gone, or another -/
def passesCallers (cfg : SchedulerConfig) (k : ExpertKey) (s : Scheduler) (a : Action) : Bool :=
  (List.range s.nextRequest).all fun n => match s.requests n, s.calls n with
    | some x, some .looking => x.request.key ≠ k ∨ x.request.destination = .Nvme ∨
        (forgets cfg s a ≠ some k ∧
          (records s a).all fun found => found.1 ≠ k ∨ found.2 = x.request.destination)
    | _, _ => true

def Keeps (cfg : SchedulerConfig) (k : ExpertKey) (s : Scheduler) (a : Action) : Bool :=
  takesNothing cfg k s a && passesCallers cfg k s a

/-! ## the property -/

/-- the transfer finished, was for the expert, and came with the buffer of the tier -/
structure BroughtTo (s : Scheduler) (k : ExpertKey) (location : MemoryTier) (r : TransferResult) :
    Prop where
  destination : r.destination = location
  carries : r.carries location = true
  transferred : ∃ t, .transferred t r ∈ s.history ∧ (s.tasks t).key = k

/-- the table has the transfer that brought a ready expert where it is -/
def Retained (k : ExpertKey) (s : Scheduler) : Prop :=
  ∀ e, s.states k = some e → e.state = .Ready ∨ e.state = .InUse → e.currentLocation ≠ .Nvme →
    ∃ r, s.residentTransfers k = some r ∧ s.BroughtTo k e.currentLocation r

/-- a success for the expert carries the buffer of the tier that was asked for -/
def Delivered (k : ExpertKey) (s : Scheduler) : Prop :=
  ∀ n a result, s.requests n = some a → a.request.key = k → a.request.destination ≠ .Nvme →
    result ∈ deliveries a.future s.history ∨ result ∈ callbackCalls n s.history →
    result.success = true → result.transfer.carries a.request.destination = true

structure ReadyHasData (k : ExpertKey) (s : Scheduler) : Prop where
  retained : Retained k s
  delivered : Delivered k s

/-- no worker has marked the expert ready and still has to record the transfer -/
def TransferRecorded (k : ExpertKey) (s : Scheduler) : Prop :=
  ∀ w t r, s.workers w = .ready t r → (s.tasks t).key ≠ k

/-- a worker that has still to record has the transfer, and its task is pending: the table answers
nobody -/
def InHand (k : ExpertKey) (s : Scheduler) : Prop :=
  ∀ w t r e, s.workers w = .ready t r → (s.tasks t).key = k → s.states k = some e →
    e.currentLocation ≠ .Nvme → s.pendingByExpert k = some t ∧ s.BroughtTo k e.currentLocation r

/-! ## the invariant -/

/-- the transfer is the one that the task asks for -/
structure Brought (c : Core) (t : TaskId) (r : TransferResult) : Prop where
  above : (c.targets t).destination ≠ .Nvme
  destination : r.destination = (c.targets t).destination
  carries : r.carries (c.targets t).destination = true
  known : t < c.nextTask
  transferred : .transferred t r ∈ c.history

/-- a result of the task is a failure, or has the buffer that the task asks for -/
def Supplies (c : Core) (t : TaskId) (result : ScheduleResult) : Prop :=
  t < c.nextTask ∧ (result.success = true → result.transfer.carries (c.targets t).destination = true)

/-- what a worker carries is what its task asks for -/
def Laden (c : Core) : WorkerPc → Prop
  | .transferred t r => Brought c t r
  | .ready t r => Brought c t r
  | .trimming t r _ _ => Brought c t r
  | .recorded t r => Brought c t r
  | .failing t result => t < c.nextTask ∧ result.success = false
  | .failed t result => t < c.nextTask ∧ result.success = false
  | .completing t result => Supplies c t result
  | .notifying t result _ => Supplies c t result
  | _ => True

/-- what a caller that is answered at once has, or will find -/
def CallLaden (resident : Option TransferResult) (d : MemoryTier) : Option ReadyCall → Prop
  | some .looking => ∃ r, resident = some r ∧ r.carries d = true
  | some (.looked transfer) => transfer.carries d = true
  | some (.answering result) => result.transfer.carries d = true
  | some (.answered result) => result.transfer.carries d = true
  | none => True

structure Retains (k : ExpertKey) (c : Core) : Prop where
  laden : ∀ w, Laden c (c.workers w)
  /-- the expert is where its transfer brought it, unless it was sent back meanwhile -/
  arrived : ∀ w t r e, c.workers w = .ready t r → (c.targets t).key = k → c.states k = some e →
    e.currentLocation = (c.targets t).destination ∨ e.currentLocation = .Nvme
  retained : ∀ e, c.states k = some e → usable e.state → e.currentLocation ≠ .Nvme →
    (∀ w t r, c.workers w = .ready t r → (c.targets t).key ≠ k) →
    ∃ t r, c.residentTransfers k = some r ∧ Brought c t r ∧ (c.targets t).key = k ∧
      (c.targets t).destination = e.currentLocation
  joined : ∀ n a t, c.requests n = some a → a.future = .task t →
    t < c.nextTask ∧ (c.targets t).key = a.request.key ∧
      (c.targets t).destination = a.request.destination
  callers : ∀ n a, c.requests n = some a → a.request.key = k → a.request.destination ≠ .Nvme →
    CallLaden (c.residentTransfers k) a.request.destination (c.calls n)
  resolved : ∀ t result, .resolved (.task t) result ∈ c.history → Supplies c t result
  answered : ∀ n a result, c.requests n = some a → a.request.key = k →
    a.request.destination ≠ .Nvme → .resolved (.own n) result ∈ c.history →
    result.transfer.carries a.request.destination = true
  called : ∀ n a result, c.requests n = some a → a.request.key = k →
    a.request.destination ≠ .Nvme → .called n result ∈ c.history →
    result.success = true → result.transfer.carries a.request.destination = true

/-! ## what a step does to transfers, callers and requests -/

/-- what the step of a worker did, by where it stood and where it stands -/
def Did (s : Scheduler) (c : Core) : WorkerPc → WorkerPc → Prop
  | .loading _, .transferred t r => .transferred t r ∈ c.history
  | .transferred _ _, .ready t _ =>
    ∃ e : ExpertState, c.states (s.tasks t).key = some (e.settled (s.tasks t).request.destination)
  | .ready t r, _ => c.residentTransfers (s.tasks t).key =
      (if (s.tasks t).request.destination = .Nvme then none else some r) ∧ c.states = s.states
  | _, _ => True

/-- where a caller can go from where it stands -/
inductive NextCall (resident : Option TransferResult) :
    Option ReadyCall → Option ReadyCall → Prop where
  | looks : NextCall resident (some .looking) (some (.looked (resident.getD {})))
  | snapshots {transfer : TransferResult} {e : ExpertState} : NextCall resident
      (some (.looked transfer)) (some (.answering { success := true, transfer := transfer, state := e }))
  | answers {result : ScheduleResult} :
      NextCall resident (some (.answering result)) (some (.answered result))
  | answered {result : ScheduleResult} : NextCall resident (some (.answered result)) none

/-- a request is answered at once, or waits for a task that does what it asks for -/
inductive Accepts (s : Scheduler) (c : Core) (n : RequestId) : Accepted → Prop where
  | own {request : ScheduleRequest} {callback : Bool} {e : ExpertState}
      (he : s.states request.key = some e)
      (hi : immediatelyReady request e (s.pendingByExpert request.key) = true)
      (hc : c.calls n = some .looking) (hr : c.residentTransfers = s.residentTransfers) :
      Accepts s c n ⟨request, .own n, callback⟩
  | task {request : ScheduleRequest} {callback : Bool} {t : TaskId} (ht : t < c.nextTask)
      (hk : (c.targets t).key = request.key) (hd : (c.targets t).destination = request.destination)
      (hc : c.calls = s.calls) : Accepts s c n ⟨request, .task t, callback⟩

section

variable {a : Action} (h : Change cfg s a c)

include h

theorem Change.resident_eq (ho : OwnPlace k a = true) :
    c.residentTransfers k = s.residentTransfers k ∨
    (forgets cfg s a = some k ∧
      ((c.states k = s.states k ∧
          (ownRound s k a = true ∨ ∀ e, s.states k = some e → ¬ reconcilable e.state)) ∨
        ∃ e, c.states k = some e ∧ e.currentLocation = .Nvme)) ∨
    ∃ w t r, s.workers w = .ready t r ∧ k = (s.tasks t).key ∧
      records s a = some (k, (s.tasks t).request.destination) ∧ c.residentTransfers k =
        if (s.tasks t).request.destination = .Nvme then none else some r := by
  have hset : ∀ {k' : ExpertKey} {r : Option TransferResult} {P : Prop},
      c.residentTransfers = Function.update s.residentTransfers k' r → (k = k' → P) →
      c.residentTransfers k = s.residentTransfers k ∨ P := by
    intro k' r P hc hP
    by_cases hk : k = k'
    · exact .inr (hP hk)
    · rw [hc, Function.update_of_ne hk]
      exact .inl rfl
  cases h
  case acknowledge he hr => exact hset rfl fun hkk => absurd hkk.symm (of_decide_eq_true ho)
  case acknowledgeRefused => exact hset rfl fun hkk => absurd hkk.symm (of_decide_eq_true ho)
  case expire layerId k' rest wasted e hl hk he hr =>
    refine hset rfl fun hkk => .inl ⟨?_, .inr ⟨e.settled .Nvme, ?_, rfl⟩⟩
    · unfold forgets
      simp only [hl, if_pos hk, hkk]
    · rw [hkk]
      exact States.set_self ..
  case expireRefused layerId k' rest wasted hl hk hr =>
    refine hset rfl fun hkk => .inl ⟨?_, .inl ⟨rfl, .inr (hkk ▸ hr)⟩⟩
    unfold forgets
    simp only [hl, if_pos hk, hkk]
  case record w outcome t r pc lock hw hl hpc =>
    refine hset rfl fun hkk => .inr ⟨w, t, r, hw, hkk, ?_, ?_⟩
    · unfold records
      simp only [hw, hkk]
    · rw [hkk]
      exact Function.update_self ..
  case dropsOwn w outcome t r found n rest hw hf hx =>
    refine hset rfl fun hkk => .inl ⟨?_, .inl ⟨rfl, .inl ?_⟩⟩
    · unfold forgets
      simp only [hw, hf, hx, hkk, Bool.false_eq_true, if_false]
    · unfold ownRound
      simp only [hw, hkk, decide_true]
  case drops w outcome t r found n k' rest e hw hf hx hne he hr =>
    refine hset rfl fun hkk => .inl ⟨?_, .inr ⟨e.settled .Nvme, ?_, rfl⟩⟩
    · unfold forgets
      simp only [hw, hf, hx, hkk, Bool.false_eq_true, if_false]
    · rw [hkk]
      exact States.set_self ..
  case dropRefused w outcome t r found n k' rest x hw hf hx hne hr =>
    refine hset rfl fun hkk => .inl ⟨?_, .inl ⟨rfl, .inr (hkk ▸ hr)⟩⟩
    unfold forgets
    simp only [hw, hf, hx, hkk, Bool.false_eq_true, if_false]
  all_goals exact .inl rfl

theorem Change.did {w : WorkerId} (hne : c.workers w ≠ s.workers w) :
    Did s c (s.workers w) (c.workers w) := by
  have hupd : ∀ {w' : WorkerId} {pc pc' : WorkerPc}, s.workers w' = pc' →
      c.workers = Function.update s.workers w' pc → Did s c pc' pc →
      Did s c (s.workers w) (c.workers w) := by
    intro w' pc pc' hw hc hd
    by_cases e : w = w'
    · subst e
      rw [hw, hc, Function.update_self]
      exact hd
    · rw [hc, Function.update_of_ne e] at hne
      exact absurd rfl hne
  cases h
  case claim hw hp hf => exact hupd hw rfl trivial
  case exits hw => exact hupd hw rfl trivial
  case fails hw hr => rcases hw with hw | hw <;> exact hupd hw rfl trivial
  case launch hw he => exact hupd hw rfl trivial
  case transferred hw ha hs => exact hupd hw rfl List.mem_cons_self
  case finish hw he => exact hupd hw rfl ⟨_, States.set_self ..⟩
  case record hw hl hpc => exact hupd hw rfl ⟨Function.update_self .., rfl⟩
  case keeps hw => exact hupd hw rfl trivial
  case dropsOwn hw hf hx => exact hupd hw rfl trivial
  case drops hw hf hx hc he hr => exact hupd hw rfl trivial
  case dropRefused hw hf hx hc hr => exact hupd hw rfl trivial
  case trimmed hw => exact hupd hw rfl trivial
  case succeeds hw he => exact hupd hw rfl trivial
  case marksFailed hw he => exact hupd hw rfl trivial
  case notesFailure hw => exact hupd hw rfl trivial
  case completes hw => exact hupd hw rfl trivial
  case calls hw => exact hupd hw rfl trivial
  case resolves hw => exact hupd hw rfl trivial
  all_goals exact absurd rfl hne

/-- a caller stays where it is or goes on -/
theorem Change.call_of {n : RequestId} {x : Accepted} (hn : n < s.nextRequest)
    (hx : s.requests n = some x) : c.calls n = s.calls n ∨
      NextCall (s.residentTransfers x.request.key) (s.calls n) (c.calls n) := by
  have hupd : ∀ {m : RequestId} {call call' : Option ReadyCall}, s.calls m = call' →
      c.calls = Function.update s.calls m call →
      (m = n → NextCall (s.residentTransfers x.request.key) call' call) →
      c.calls n = s.calls n ∨ NextCall (s.residentTransfers x.request.key) (s.calls n) (c.calls n) := by
    intro m call call' hm hc hnext
    by_cases e : n = m
    · subst e
      rw [hm, hc, Function.update_self]
      exact .inr (hnext rfl)
    · rw [hc, Function.update_of_ne e]
      exact .inl rfl
  cases h
  case answersAtOnce => exact .inl (Function.update_of_ne (Nat.ne_of_lt hn) ..)
  case looks m a ha hc =>
    refine hupd hc rfl fun e => ?_
    obtain rfl := Option.some.inj ((e ▸ ha).symm.trans hx)
    exact .looks
  case snapshots hc he => exact hupd hc rfl fun _ => .snapshots
  case answers hc => exact hupd hc rfl fun _ => .answers
  case answered hc => exact hupd hc rfl fun _ => .answered
  all_goals exact .inl rfl

/-- what a new request waits for -/
theorem Change.request_of (hd : Dispatched cfg s) {n : RequestId} {x : Accepted}
    (hx : c.requests n = some x) : s.requests n = some x ∨ (n = s.nextRequest ∧ Accepts s c n x) := by
  have hupd : ∀ {y : Accepted}, c.requests = Function.update s.requests s.nextRequest (some y) →
      Accepts s c s.nextRequest y →
      s.requests n = some x ∨ (n = s.nextRequest ∧ Accepts s c n x) := by
    intro y hc hy
    rw [hc, Function.update_apply] at hx
    split at hx
    · next e =>
      obtain rfl := Option.some.inj hx
      exact .inr ⟨e, e ▸ hy⟩
    · exact .inl hx
  cases h
  case answersAtOnce request callback e he hi ha =>
    exact hupd rfl (.own he hi (Function.update_self ..) rfl)
  case join request callback t hp ht ha =>
    obtain ⟨hlt, hk, -⟩ := hd.1.pendingKey _ _ hp
    exact hupd rfl (.task hlt hk ht rfl)
  case enqueue request callback e he hp hi hc ha =>
    have htarget : Function.update s.core.targets s.nextTask
        ⟨request.key, request.destination, request.eviction⟩ s.nextTask =
          ⟨request.key, request.destination, request.eviction⟩ := Function.update_self ..
    exact hupd rfl (.task (Nat.lt_succ_self _) (congrArg Target.key htarget)
      (congrArg Target.destination htarget) rfl)
  all_goals exact .inl hx

end

/-! ## the invariant is kept -/

section

variable {a : Action}

theorem Change.mem_history (h : Change cfg s a c) {e : Event} (hm : e ∈ s.core.history) :
    e ∈ c.history := by
  rcases h.history_eq with he | ⟨e', -, he⟩
  · exact he ▸ hm
  · exact he ▸ List.mem_cons_of_mem _ hm

theorem Brought.mono (h : Change cfg s a c) {t : TaskId} {r : TransferResult}
    (b : Brought s.core t r) : Brought c t r := by
  have ht : c.targets t = (s.tasks t).target := h.targets_eq b.known
  have hb := b.above
  refine ⟨?_, ?_, ?_, Nat.lt_of_lt_of_le b.known h.nextTask_eq, h.mem_history b.transferred⟩
  · rw [ht]
    exact b.above
  · rw [ht]
    exact b.destination
  · rw [ht]
    exact b.carries

theorem Supplies.mono (h : Change cfg s a c) {t : TaskId} {result : ScheduleResult}
    (b : Supplies s.core t result) : Supplies c t result := by
  refine ⟨Nat.lt_of_lt_of_le b.1 h.nextTask_eq, ?_⟩
  rw [h.targets_eq b.1]
  exact b.2

theorem Laden.mono (h : Change cfg s a c) {pc : WorkerPc} (l : Laden s.core pc) : Laden c pc := by
  cases pc with
  | transferred t r => exact Brought.mono h l
  | ready t r => exact Brought.mono h l
  | trimming t r n candidates => exact Brought.mono h l
  | recorded t r => exact Brought.mono h l
  | failing t result => exact ⟨Nat.lt_of_lt_of_le l.1 h.nextTask_eq, l.2⟩
  | failed t result => exact ⟨Nat.lt_of_lt_of_le l.1 h.nextTask_eq, l.2⟩
  | completing t result => exact Supplies.mono h l
  | notifying t result callbacks => exact Supplies.mono h l
  | _ => trivial

/-- what a worker carries is what its task asks for, wherever it goes -/
theorem laden_change (hd : Dispatched cfg s) (h : Change cfg s a c) (i : Retains k s.core)
    (w : WorkerId) : Laden c (c.workers w) := by
  have hl : Laden c (s.workers w) := Laden.mono h (i.laden w)
  by_cases hne : c.workers w = s.workers w
  · exact hne ▸ hl
  have hdid := h.did hne
  have hn := (h.next_of w).resolve_left hne
  have hknown : ∀ t, stage (s.workers w) = .holds t →
      t < c.nextTask ∧ c.targets t = (s.tasks t).target := by
    intro t ht
    have hlt := (hd.1.holds w t ht).1
    exact ⟨Nat.lt_of_lt_of_le hlt h.nextTask_eq, h.targets_eq hlt⟩
  generalize s.workers w = pc at hn hl hdid hknown
  generalize c.workers w = pc' at hn hdid
  cases hn with
  | claim => trivial
  | exits => trivial
  | cancelled hr => exact ⟨(hknown _ rfl).1, hr⟩
  | launch => trivial
  | aborted hr => exact ⟨(hknown _ rfl).1, hr⟩
  | @transferred t r ha hs =>
    obtain ⟨hlt, ht⟩ := hknown t rfl
    have hadmits := of_decide_eq_true ha
    obtain ⟨-, -, -, hdest, hcarries⟩ := hadmits.2 hs
    refine ⟨?_, ?_, ?_, hlt, hdid⟩ <;> rw [ht]
    · exact hadmits.1
    · exact hdest
    · exact hcarries
  | finish => exact hl
  | record => exact hl
  | bound => exact hl
  | round => exact hl
  | refused => exact ⟨hl.known, rfl⟩
  | trimmed => exact hl
  | succeeds => exact ⟨hl.known, fun _ => hl.carries⟩
  | marksFailed => exact hl
  | notesFailure => exact ⟨hl.1, fun hs => absurd (hl.2.symm.trans hs) (by simp)⟩
  | completes => exact hl
  | calls => exact hl
  | resolves => trivial

/-- a worker whose task holds the expert's only transfer -/
theorem holds_ready {w : WorkerId} {t : TaskId} {r : TransferResult}
    (hw : s.workers w = .ready t r) : stage (s.workers w) = .holds t := by
  rw [hw]
  rfl

theorem arrived_change (hd : Dispatched cfg s) (hT : Tracked s.core) (ho : OwnPlace k a = true)
    (h : Change cfg s a c) (i : Retains k s.core) {w : WorkerId} {t : TaskId} {r : TransferResult}
    {e : ExpertState} (hc : c.workers w = .ready t r) (hk : (c.targets t).key = k)
    (he : c.states k = some e) :
    e.currentLocation = (c.targets t).destination ∨ e.currentLocation = .Nvme := by
  by_cases hsame : c.workers w = s.workers w
  · -- the worker stands before the section, as before
    have hw : s.workers w = .ready t r := hsame.symm.trans hc
    have hlt := (hd.1.holds w t (holds_ready hw)).1
    rw [h.targets_eq hlt] at hk ⊢
    replace hk : (s.tasks t).key = k := hk
    obtain ⟨hp, e₀, he₀, -⟩ := held_task hd hT (holds_ready hw)
    rw [hk] at hp he₀
    have harrived := i.arrived w t r e₀ hw hk he₀
    rcases h.states_eq k with hs | ⟨e', hwrites, hs⟩
    · obtain rfl := Option.some.inj (he.symm.trans (hs.trans he₀))
      exact harrived
    obtain rfl := Option.some.inj (he.symm.trans hs)
    have hother : ∀ {w' : WorkerId} {t' : TaskId}, stage (s.workers w') = .holds t' →
        k = (s.tasks t').key → w' = w := fun hw' hk' =>
      (same_holder hd hT (holds_ready hw) hw' (hk.trans hk')).1
    cases hwrites with
    | register hn => exact absurd (hn.symm.trans he₀) (by simp)
    | acquire he₁ =>
      obtain rfl := Option.some.inj (he₁.symm.trans he₀)
      exact harrived
    | release he₁ =>
      obtain rfl := Option.some.inj (he₁.symm.trans he₀)
      exact harrived
    | reconcile ha => rcases ha with rfl | rfl <;> exact absurd rfl (of_decide_eq_true ho)
    | giveUp => exact .inr rfl
    | begin hk' he₁ hn => exact absurd (hn.symm.trans hp) (by simp)
    | launch hw' hc' hk' =>
      obtain rfl := hother (by rw [hw']; rfl) hk'
      rw [hc] at hc'
      cases hc'
    | finish hw' hc' hk' =>
      obtain rfl := hother (by rw [hw']; rfl) hk'
      rw [hw] at hw'
      cases hw'
    | markFailed hw' hc' hk' =>
      obtain rfl := hother (by rw [hw']; rfl) hk'
      rw [hc] at hc'
      cases hc'
  · -- its transfer has just been marked ready
    have hdid := h.did hsame
    have hn := (h.next_of w).resolve_left hsame
    have hlt : s.workers w = .transferred t r → t < s.nextTask := fun hw =>
      (hd.1.holds w t (by show stage (s.workers w) = _; rw [hw]; rfl)).1
    rw [hc] at hn hdid
    generalize s.workers w = pc at hn hdid hlt
    cases hn with
    | finish =>
      obtain ⟨e₀, he₀⟩ := hdid
      rw [h.targets_eq (hlt rfl)] at hk ⊢
      replace hk : (s.tasks t).key = k := hk
      rw [hk, he] at he₀
      obtain rfl := Option.some.inj he₀
      exact .inl rfl

theorem begun_not_usable {request : ScheduleRequest} {e : ExpertState} :
    ¬ usable (begun request e).state := by
  unfold begun usable
  split <;> simp

theorem moving_not_usable {eviction : Bool} : ¬ usable (moving eviction) := by
  unfold moving usable
  cases eviction <;> simp

theorem retained_change (hd : Dispatched cfg s) (ho : OwnPlace k a = true)
    (hkeep : takesNothing cfg k s a = true) (h : Change cfg s a c) (i : Retains k s.core)
    {e : ExpertState} (he : c.states k = some e) (hu : usable e.state)
    (hl : e.currentLocation ≠ .Nvme)
    (hready : ∀ w t r, c.workers w = .ready t r → (c.targets t).key ≠ k) :
    ∃ t r, c.residentTransfers k = some r ∧ Brought c t r ∧ (c.targets t).key = k ∧
      (c.targets t).destination = e.currentLocation := by
  by_cases hin : ∃ w t r, s.workers w = .ready t r ∧ (s.tasks t).key = k
  · -- the transfer has just been recorded
    obtain ⟨w, t, r, hw, hk⟩ := hin
    have hlt := (hd.1.holds w t (holds_ready hw)).1
    have ht : c.targets t = (s.tasks t).target := h.targets_eq hlt
    have hne : c.workers w ≠ s.workers w := by
      intro hsame
      refine hready w t r (hsame.trans hw) ?_
      rw [ht]
      exact hk
    have hdid := h.did hne
    have hb : Brought s.core t r := by
      have hladen := i.laden w
      replace hladen : Laden s.core (s.workers w) := hladen
      rw [hw] at hladen
      exact hladen
    rw [hw] at hdid
    obtain ⟨hres, hstates⟩ := hdid
    have habove : (s.tasks t).request.destination ≠ .Nvme := hb.above
    rw [if_neg habove, hk] at hres
    rw [hstates] at he
    refine ⟨t, r, hres, hb.mono h, by rw [ht]; exact hk, ?_⟩
    rw [ht]
    exact ((i.arrived w t r e hw hk he).resolve_right hl).symm
  -- no transfer of the expert waits for its section
  have hold : ∀ {e₀ : ExpertState}, s.states k = some e₀ → usable e₀.state →
      e₀.currentLocation = e.currentLocation →
      c.residentTransfers k = s.residentTransfers k →
      ∃ t r, c.residentTransfers k = some r ∧ Brought c t r ∧ (c.targets t).key = k ∧
        (c.targets t).destination = e.currentLocation := by
    intro e₀ he₀ hu₀ hl₀ hres
    obtain ⟨t, r, hr, hb, hk, hdest⟩ := i.retained e₀ he₀ hu₀ (hl₀ ▸ hl)
      fun w t r hw hk => hin ⟨w, t, r, hw, hk⟩
    have ht : c.targets t = (s.tasks t).target := h.targets_eq hb.known
    refine ⟨t, r, hres.trans hr, hb.mono h, ?_, ?_⟩ <;> rw [ht]
    · exact hk
    · exact hdest.trans hl₀
  rcases h.resident_eq ho with hres | ⟨hf, hstates⟩ | ⟨w, t, r, hw, hk, -⟩
  · rcases h.states_eq k with hs | ⟨e', hwrites, hs⟩
    · exact hold (hs.symm.trans he) hu rfl hres
    obtain rfl := Option.some.inj (he.symm.trans hs)
    cases hwrites with
    | register hn => exact absurd ((of_decide_eq_true ho).resolve_left fun hne => hne rfl) hl
    | acquire he₁ hs₁ => exact hold he₁ (.inl hs₁) rfl hres
    | release he₁ hs₁ => exact hold he₁ (.inr hs₁) rfl hres
    | reconcile ha => rcases ha with rfl | rfl <;> exact absurd rfl (of_decide_eq_true ho)
    | giveUp => exact absurd rfl hl
    | begin => exact absurd hu begun_not_usable
    | launch => exact absurd hu moving_not_usable
    | finish hw hc hk =>
      refine absurd ?_ (hready _ _ _ hc)
      rw [h.targets_eq (hd.1.holds _ _ (by show stage (s.workers _) = _; rw [hw]; rfl)).1]
      exact hk.symm
    | markFailed => rcases hu with hu | hu <;> cases hu
  · rcases hstates with ⟨hs, hround⟩ | ⟨e', he', hnvme⟩
    · -- the expert would be left ready without its transfer
      have he₀ : s.states k = some e := hs.symm.trans he
      have hk := (of_decide_eq_true hkeep).resolve_left (fun hne => hne hf)
      rw [he₀] at hk
      rcases of_decide_eq_true hk with hk | ⟨hr, hown⟩ | ⟨hr, hi⟩
      · exact absurd hk hl
      · rcases hround with hround | hround
        · exact absurd (hown.symm.trans hround) (by simp)
        · refine absurd ?_ (hround e he₀)
          rw [hr]
          unfold reconcilable
          simp
      · exact absurd hu (by rintro (hu | hu); exacts [hr hu, hi hu])
    · obtain rfl := Option.some.inj (he.symm.trans he')
      exact absurd hnvme hl
  · exact absurd ⟨w, t, r, hw, hk.symm⟩ hin

/-- of a request that is still to come, nothing was said, and nobody answers it -/
theorem unanswered_fresh (hd : Dispatched cfg s) (result : ScheduleResult) :
    .resolved (.own s.nextRequest) result ∉ s.core.history := by
  intro hm
  have hmem := mem_deliveries (mem_of_noted hm)
  rw [deliveries_eq] at hmem
  replace hmem : result ∈ Dispatch.values (.own s.nextRequest) s.view.log := hmem
  have hnone : Dispatch.values (.own s.nextRequest) s.view.log = [] :=
    (hd.2.freshRequest _ (Nat.le_refl _)).1
  rw [hnone] at hmem
  cases hmem

theorem call_fresh (hd : Dispatched cfg s) : s.calls s.nextRequest = none := by
  cases hcall : s.calls s.nextRequest with
  | none => rfl
  | some call =>
    have hview : s.view.calls s.nextRequest = some (answerOf call) := by
      show (s.calls _).map answerOf = _
      rw [hcall]
      rfl
    obtain ⟨callback, hreq⟩ := hd.2.call _ _ hview
    exact absurd (hd.2.lt_nextRequest hreq) (Nat.lt_irrefl _)

theorem call_lt (hd : Dispatched cfg s) {n : RequestId} {x : Accepted}
    (hx : s.requests n = some x) : n < s.nextRequest := hd.2.lt_nextRequest (view_requests hx)

theorem NextCall.laden {resident : Option TransferResult} {d : MemoryTier}
    {call call' : Option ReadyCall} (h : NextCall resident call call')
    (hl : CallLaden resident d call) (resident' : Option TransferResult) :
    CallLaden resident' d call' := by
  cases h with
  | looks =>
    obtain ⟨r, rfl, hr⟩ := hl
    exact hr
  | snapshots => exact hl
  | answers => exact hl
  | answered => trivial

/-- a caller that has looked does not look again -/
theorem CallLaden.looked {resident resident' : Option TransferResult} {d : MemoryTier}
    {call : Option ReadyCall} (hl : CallLaden resident d call)
    (h : call = some .looking → ∃ r, resident' = some r ∧ r.carries d = true) :
    CallLaden resident' d call := by
  cases call with
  | none => trivial
  | some call =>
    cases call with
    | looking => exact h rfl
    | looked transfer => exact hl
    | answering result => exact hl
    | answered result => exact hl

theorem usable_of_immediatelyReady {request : ScheduleRequest} {e : ExpertState}
    {existing : Option TaskId} (h : immediatelyReady request e existing = true) :
    existing = none ∧ e.currentLocation = request.destination ∧ usable e.state := by
  obtain ⟨hp, -, hl, hu⟩ := of_decide_eq_true h
  exact ⟨hp, hl, hu⟩

theorem callers_change (hd : Dispatched cfg s) (hT : Tracked s.core) (ho : OwnPlace k a = true)
    (hkeep : passesCallers cfg k s a = true) (h : Change cfg s a c) (i : Retains k s.core)
    {n : RequestId} {x : Accepted} (hx : c.requests n = some x) (hk : x.request.key = k)
    (hdest : x.request.destination ≠ .Nvme) :
    CallLaden (c.residentTransfers k) x.request.destination (c.calls n) := by
  rcases h.request_of hd hx with hx' | ⟨rfl, hnew⟩
  · have hl : CallLaden (s.residentTransfers k) x.request.destination (s.calls n) :=
      i.callers n x hx' hk hdest
    rcases h.call_of (call_lt hd hx') hx' with hc | hnext
    · rw [hc]
      refine hl.looked fun hlooking => ?_
      -- the caller still has to look: the step passes it
      rw [hlooking] at hl
      obtain ⟨r, hr, hcarries⟩ := hl
      have hpass := List.all_eq_true.mp hkeep n (List.mem_range.mpr (call_lt hd hx'))
      rw [hx', hlooking] at hpass
      obtain ⟨hf, hrec⟩ :=
        ((of_decide_eq_true hpass).resolve_left fun hne => hne hk).resolve_left hdest
      rcases h.resident_eq ho with hres | ⟨hforgets, -⟩ | ⟨w, t, r', hw, hkt, hrecords, hres⟩
      · exact ⟨r, hres.trans hr, hcarries⟩
      · exact absurd hforgets hf
      · rw [hrecords] at hrec
        replace hrec := (of_decide_eq_true hrec).resolve_left fun hne => hne rfl
        replace hrec : (s.tasks t).request.destination = x.request.destination := hrec
        have hladen : Laden s.core (s.workers w) := i.laden w
        rw [hw] at hladen
        rw [if_neg (hrec ▸ hdest)] at hres
        exact ⟨r', hres, hrec ▸ hladen.carries⟩
    · rw [hk] at hnext
      exact hnext.laden hl _
  · cases hnew with
    | @own request callback e he hi hc hr =>
      obtain ⟨hp, hl, hu⟩ := usable_of_immediatelyReady hi
      obtain ⟨t, r, hr', hb, -, ht⟩ := i.retained e (hk ▸ he) hu (hl ▸ hdest) fun w t r hw hkt => by
        obtain ⟨hp', -⟩ := held_task hd hT (holds_ready hw)
        rw [show (s.tasks t).key = request.key from hkt.trans hk.symm, hp] at hp'
        cases hp'
      rw [hc, hr]
      refine ⟨r, hr', ?_⟩
      rw [← hl, ← ht]
      exact hb.carries
    | task ht hkt hdt hc =>
      rw [hc]
      rw [call_fresh hd]
      trivial

theorem Change.retains (hd : Dispatched cfg s) (hT : Tracked s.core) (ho : OwnPlace k a = true)
    (hkeep : Keeps cfg k s a = true) (h : Change cfg s a c) (i : Retains k s.core) :
    Retains k c := by
  obtain ⟨htakes, hpasses⟩ := Bool.and_eq_true_iff.mp hkeep
  have hladen := laden_change hd h i
  have hcallers : ∀ n x, s.requests n = some x → x.request.key = k →
      x.request.destination ≠ .Nvme →
      CallLaden (s.residentTransfers k) x.request.destination (s.calls n) := i.callers
  have hnew : ∀ {e : Event}, e ∈ c.history → e ∈ s.core.history ∨ Says cfg s c e := by
    intro e hm
    rcases h.history_eq with he | ⟨e', hsaid, he⟩
    · exact .inl (he ▸ hm)
    · rw [he] at hm
      rcases List.mem_cons.mp hm with rfl | hm
      · exact .inr hsaid
      · exact .inl hm
  have hsupplies : ∀ {w t result callbacks}, s.workers w = .notifying t result callbacks →
      Supplies s.core t result := by
    intro w t result callbacks hw
    have hl : Laden s.core (s.workers w) := i.laden w
    rw [hw] at hl
    exact hl
  refine ⟨hladen, fun w t r e => arrived_change hd hT ho h i,
    fun e => retained_change hd ho htakes h i, fun n x t hx hf => ?_,
    fun n x => callers_change hd hT ho hpasses h i, fun t result hm => ?_,
    fun n x result hx hk hdest hm => ?_, fun n x result hx hk hdest hm hs => ?_⟩
  · rcases h.request_of hd hx with hx | ⟨-, hacc⟩
    · obtain ⟨hlt, hk, hdt⟩ := i.joined n x t hx hf
      rw [h.targets_eq hlt]
      exact ⟨Nat.lt_of_lt_of_le hlt h.nextTask_eq, hk, hdt⟩
    · cases hacc with
      | own => cases hf
      | task ht hk hdt =>
        obtain rfl := Future.task.inj hf
        exact ⟨ht, hk, hdt⟩
  · rcases hnew hm with hm | hsaid
    · exact (i.resolved t result hm).mono h
    · cases hsaid with
      | resolves hw => exact (hsupplies hw).mono h
  · rcases hnew hm with hm | hsaid
    · rcases h.requests_of hx with hx | rfl
      · exact i.answered n x result hx hk hdest hm
      · exact absurd hm (unanswered_fresh hd result)
    · cases hsaid with
      | answered hc =>
        rcases h.requests_of hx with hx | rfl
        · have hl := hcallers n x hx hk hdest
          rw [hc] at hl
          exact hl
        · rw [call_fresh hd] at hc
          cases hc
  · rcases hnew hm with hm | hsaid
    · rcases h.requests_of hx with hx | rfl
      · exact i.called n x result hx hk hdest hm hs
      · exact absurd hm (uncalled_fresh hd result)
    · cases hsaid with
      | calls hw =>
        obtain ⟨hlt, hfuture⟩ := caller_of_notifying hd hw
        rcases h.requests_of hx with hx | rfl
        · obtain ⟨-, -, hdt⟩ := i.joined n x _ hx (hfuture x hx)
          exact hdt ▸ (hsupplies hw).2 hs
        · exact absurd hlt (Nat.lt_irrefl _)
      | answers ha hc =>
        rcases h.requests_of hx with hx | rfl
        · have hl := hcallers n x hx hk hdest
          rw [hc] at hl
          exact hl
        · exact absurd (call_lt hd ha) (Nat.lt_irrefl _)

end

/-! ## runs -/

theorem new_retains : Retains k ({} : Scheduler).core where
  laden w := trivial
  arrived w t r e h := by cases h
  retained e h := by cases h
  joined n x t h := by cases h
  callers n x h := by cases h
  resolved t result h := by cases h
  answered n x result h := by cases h
  called n x result h := by cases h

theorem Brought.broughtTo {t : TaskId} {r : TransferResult} {location : MemoryTier}
    (hb : Brought s.core t r) (hk : (s.tasks t).key = k)
    (hl : (s.tasks t).request.destination = location) : s.BroughtTo k location r where
  destination := hl ▸ hb.destination
  carries := hl ▸ hb.carries
  transferred := ⟨t, mem_of_noted hb.transferred, hk⟩

theorem Retains.table (i : Retains k s.core) (hrec : TransferRecorded k s) : Retained k s := by
  intro e he hu hl
  obtain ⟨t, r, hr, hb, hk, ht⟩ := i.retained e he hu hl hrec
  exact ⟨r, hr, hb.broughtTo hk ht⟩

theorem Retains.inHand (hs : Sound cfg s) (i : Retains k s.core) : InHand k s := by
  intro w t r e hw hk he hl
  have hb : Laden s.core (s.workers w) := i.laden w
  rw [hw] at hb
  obtain ⟨hp, -⟩ := held_task hs.dispatched hs.tracked (holds_ready hw)
  exact ⟨hk ▸ hp, Brought.broughtTo hb hk ((i.arrived w t r e hw hk he).resolve_right hl).symm⟩

theorem Retains.delivered (hs : Sound cfg s) (i : Retains k s.core) : Delivered k s := by
  intro n x result hx hk hdest hm hsuccess
  rcases hm with hm | hm
  · replace hm := noted_mem rfl (mem_resolved hm)
    cases hf : x.future with
    | task t =>
      rw [hf] at hm
      obtain ⟨-, -, ht⟩ := i.joined n x t hx hf
      exact ht ▸ (i.resolved t result hm).2 hsuccess
    | own m =>
      obtain rfl := own_number hs.dispatched hx hf
      rw [hf] at hm
      exact i.answered m x result hx hk hdest hm
  · exact i.called n x result hx hk hdest (noted_mem rfl (mem_called hm)) hsuccess

/-- whose task is not pending has nothing to record -/
theorem transferRecorded_of_pending (hs : Sound cfg s) (hp : s.pendingByExpert k = none) :
    TransferRecorded k s := by
  intro w t r hw hk
  obtain ⟨hp', -⟩ := held_task hs.dispatched hs.tracked (holds_ready hw)
  rw [hk, hp] at hp'
  cases hp'

theorem step_retains {a : Action} (hc : OwnPlace k a = true ∧ Keeps cfg k s a = true)
    (hs : Sound cfg s ∧ Retains k s.core) (h : step cfg a s = some s') :
    Sound cfg s' ∧ Retains k s'.core := by
  obtain ⟨hs, i⟩ := hs
  exact ⟨step_sound hs h,
    (step_change hs.dispatched hs.tracked h).1.retains hs.dispatched hs.tracked hc.1 hc.2 i⟩

theorem run_readyHasData (cfg : SchedulerConfig) (k : ExpertKey) (as : List Action)
    (h : Runs.Along (step cfg) (fun s a _ => OwnPlace k a = true ∧ Keeps cfg k s a = true) {} as)
    (hr : run cfg as = some s) :
    (TransferRecorded k s → ReadyHasData k s) ∧ Delivered k s ∧ InHand k s := by
  have hnew : Sound cfg ({} : Scheduler) ∧ Retains k ({} : Scheduler).core :=
    ⟨new_sound, new_retains⟩
  have hstep : ∀ s a s', step cfg a s = some s' → OwnPlace k a = true ∧ Keeps cfg k s a = true →
      Sound cfg s ∧ Retains k s.core → Sound cfg s' ∧ Retains k s'.core :=
    fun _ _ _ ha hc hi => step_retains hc hi ha
  obtain ⟨hs, i⟩ := Runs.run_keeps hstep as _ _ h hnew hr
  have hdelivered := i.delivered hs
  exact ⟨fun hrec => ⟨i.table hrec, hdelivered⟩, hdelivered, i.inHand hs⟩

/-- an expert is loaded, stays, and a request for it is answered at once -/
def answeredAtOnce : List Action :=
  .registerExpert (0, 1) .Nvme :: .prefetch ⟨0, 1, 1, 1⟩ false :: loadInto (twoBytes 1) ++
    List.replicate 6 (.work 0 (.error .outOfFuel)) ++
    .schedule { expertId := 1, destination := .Ram } true :: List.replicate 4 (.readyResult 1)

theorem run_readyHasData_answered :
    ((run singleWorker answeredAtOnce).map fun s =>
      ((s.states (0, 1)).map (·.currentLocation),
        (callbackCalls 1 s.history).map (·.transfer))) = some (some .Ram, [twoBytes 1]) ∧
    ∀ s, run singleWorker answeredAtOnce = some s → TransferRecorded (0, 1) s ∧ ReadyHasData (0, 1) s := by
  have hpending : (run singleWorker answeredAtOnce).all (fun s =>
      s.pendingByExpert (0, 1) = none) = true := by decide +kernel
  refine ⟨by decide +kernel, fun s hs => ?_⟩
  have hp := of_decide_eq_true ((Option.all_eq_true _ _).mp hpending s hs)
  have hrec : TransferRecorded (0, 1) s := transferRecorded_of_pending (run_sound hs) hp
  exact ⟨hrec, (run_readyHasData _ _ _ (by decide +kernel) hs).1 hrec⟩

/-- speculation may hold 10 bytes, and the expert has 20 -/
def tightBound : SchedulerConfig where
  workerCount := 1
  prefetchDestination := .Ram
  maximumPrefetchBytes := 10
  hasWorker := Nat.one_ne_zero

def twentyBytes : TransferResult where
  status := .Completed
  record := ⟨0, 1, 0, 20⟩
  buffer := some ⟨1, List.replicate 20 0, true⟩
  destination := .Ram

/-- the bound drops the transfer that has just been recorded, and leaves its expert ready in RAM: the
next request for it succeeds at once, without a buffer -/
def droppedOwn : List Action :=
  .registerExpert (0, 1) .Nvme :: .prefetch ⟨0, 1, 1, 1⟩ false :: loadInto twentyBytes ++
    List.replicate 6 (.work 0 (.error .outOfFuel)) ++
    .schedule { expertId := 1, destination := .Ram } true :: List.replicate 4 (.readyResult 1)

theorem not_readyHasData_after_own_drop : (∀ a ∈ droppedOwn, OwnPlace (0, 1) a = true) ∧
    ∃ s, run tightBound droppedOwn = some s ∧ ¬ ReadyHasData (0, 1) s := by
  have hempty : (run tightBound droppedOwn).any (fun s => (s.requests 1).any fun x =>
      (callbackCalls 1 s.history).any fun result => x.request.key = (0, 1) ∧
        x.request.destination ≠ .Nvme ∧ result.success = true ∧
        result.transfer.carries x.request.destination = false) = true := by decide +kernel
  obtain ⟨s, hs, hempty⟩ := Option.any_eq_true _ _ |>.mp hempty
  obtain ⟨x, hx, hempty⟩ := Option.any_eq_true _ _ |>.mp hempty
  obtain ⟨result, hm, hempty⟩ := List.any_eq_true.mp hempty
  obtain ⟨hk, hdest, hsuccess, hcarries⟩ := of_decide_eq_true hempty
  refine ⟨by decide, s, hs, fun h => ?_⟩
  exact absurd (hcarries.symm.trans (h.delivered 1 x result hx hk hdest (.inr hm) hsuccess)) (by simp)

end HyperMoE.Scheduler
