import HyperMoE.Memory.Intact

/-!
# What the transfer manager keeps

For any number of workers and any order of their steps, of `submit`, `cancel` and `shutdown`.

* `Right`            an outcome that a request may get;
* `handoff`          where the tasks are: queued, with a worker, or resolved;
* `Effect`           what one step does;
* `Inv`              the invariant, which every effect keeps;
* `run_inv`          it holds after every run.
-/

namespace HyperMoE.Memory

open Lib Lib.Fallible Storage

variable {env : Environment} {answers : Answers}

/-! ## outcomes -/

/-- an exception, an intact result, or the cancelled one if the flag is set -/
def Right (env : Environment) (cancelled : List Nat) (t : Task) : Outcome → Prop
  | .error _ => True
  | .ok result => Intact env t.request result ∨
      (result = cancelledResult ∧ t.sequence ∈ cancelled)

theorem Right.mono {cancelled cancelled' : List Nat} {t : Task} {o : Outcome}
    (h : Right env cancelled t o) (hsub : ∀ n ∈ cancelled, n ∈ cancelled') :
    Right env cancelled' t o := by
  cases o with
  | error e => exact trivial
  | ok result => exact h.imp id fun h => ⟨h.1, hsub _ h.2⟩

/-- what is known in each stage -/
def Stage.Sound (env : Environment) (cancelled : List Nat) : Stage → Prop
  | .waiting | .exited | .popped _ | .loading _ => True
  | .loaded t l | .transferring t l =>
    Supplies env t.request l.record l.source.bytes ∧ l.Own env
  | .transferred t r | .ordering t r | .calling t r => Intact env t.request r
  | .delivering t o => Right env cancelled t o

theorem Stage.Sound.mono {cancelled cancelled' : List Nat} {stage : Stage}
    (h : stage.Sound env cancelled) (hsub : ∀ n ∈ cancelled, n ∈ cancelled') :
    stage.Sound env cancelled' := by
  cases stage with
  | delivering t o => exact Right.mono h hsub
  | _ => exact h

/-! ## one stage -/

theorem Stage.ofTransfer_task (t : Task) (l : Loaded) (o : Outcome) :
    (Stage.ofTransfer t l o).task = some t := by
  unfold Stage.ofTransfer
  cases o with
  | error e => rfl
  | ok r =>
    dsimp only
    split <;> rfl

theorem Stage.ofLoad_task (t : Task) (x : Except Exn Loaded) : (Stage.ofLoad t x).task = some t := by
  cases x <;> rfl

/-- a worker keeps its task -/
theorem Stage.advance_task (stage : Stage) (cancelled : Bool) (order : Nat) (streams : Streams) :
    (stage.advance env answers cancelled order streams).1.task = stage.task := by
  cases stage with
  | popped t => cases cancelled <;> rfl
  | loading t => exact Stage.ofLoad_task t _
  | loaded t l => cases cancelled <;> rfl
  | transferring t l => exact Stage.ofTransfer_task t l _
  | transferred t r => cases cancelled <;> rfl
  | _ => rfl

theorem Stage.advance_sound {stage : Stage} {flags : List Nat} {cancelled : Bool} {order : Nat}
    {streams : Streams} (h : stage.Sound env flags)
    (hflag : ∀ t, stage.task = some t → cancelled = true → t.sequence ∈ flags) :
    (stage.advance env answers cancelled order streams).1.Sound env flags := by
  cases stage with
  | popped t =>
    cases cancelled with
    | true => exact .inr ⟨rfl, hflag t rfl rfl⟩
    | false => exact trivial
  | loading t =>
    show (Stage.ofLoad t (loadSource env answers t.request)).Sound env flags
    cases hload : loadSource env answers t.request with
    | error e => exact trivial
    | ok l => exact loadSource_supplies hload
  | loaded t l =>
    cases cancelled with
    | true => exact .inr ⟨rfl, hflag t rfl rfl⟩
    | false => exact h
  | transferring t l =>
    have hspec := wp_tryTransfer answers streams h.1 h.2
    rw [wp_def] at hspec
    show (Stage.ofTransfer t l ((tryTransfer env answers t.request l).exec streams).1).Sound env flags
    cases ho : ((tryTransfer env answers t.request l).exec streams).1 with
    | error e => exact trivial
    | ok r =>
      have hintact := hspec.2.2 r ho
      unfold Stage.ofTransfer
      dsimp only
      split <;> exact hintact
  | transferred t r =>
    cases cancelled with
    | true => exact .inr ⟨rfl, hflag t rfl rfl⟩
    | false => exact h
  | ordering t r => exact ⟨h.status, h.delivers⟩
  | calling t r =>
    show Right env flags t ((if t.request.callback then answers.attempt .callback else .ok ()).map
      fun _ => r)
    cases (if t.request.callback then answers.attempt .callback else .ok ()) with
    | error e => exact trivial
    | ok u => exact .inl h
  | _ => exact h

/-- the handles that a stage opens, it closes -/
theorem Stage.advance_handles {stage : Stage} {flags : List Nat} {cancelled : Bool} {order : Nat}
    {streams : Streams} (h : stage.Sound env flags) :
    (stage.advance env answers cancelled order streams).2.openStreams = streams.openStreams ∧
      (stage.advance env answers cancelled order streams).2.openEvents = streams.openEvents := by
  cases stage with
  | transferring t l =>
    have hspec := wp_tryTransfer answers streams h.1 h.2
    rw [wp_def] at hspec
    exact ⟨hspec.1, hspec.2.1⟩
  | _ => exact ⟨rfl, rfl⟩

/-! ## the order of the queue -/

/-- `t` is taken before `u` -/
def Before (t u : Task) : Prop :=
  u.request.priority < t.request.priority ∨
    (u.request.priority = t.request.priority ∧ t.sequence < u.sequence)

theorem higherPriority_iff {u t : Task} : higherPriority u t = true ↔ Before t u := by
  unfold higherPriority Before
  split
  · next h =>
    rw [decide_eq_true_eq]
    exact ⟨.inl, fun h' => h'.resolve_right fun h' => h h'.1⟩
  · next h =>
    rw [decide_eq_true_eq]
    have heq : u.request.priority = t.request.priority := not_not.mp h
    exact ⟨fun h' => .inr ⟨heq, h'⟩, fun h' => (h'.resolve_left (by omega)).2⟩

theorem Before.trans {t u v : Task} (h : Before t u) (h' : Before u v) : Before t v := by
  unfold Before at *
  omega

theorem before_total {t u : Task} (hne : t.sequence ≠ u.sequence) (h : ¬ Before t u) :
    Before u t := by
  unfold Before at *
  omega

namespace TransferManager

variable {s s' : TransferManager}

def held (stage : Stage) : Option Nat := stage.task.map Task.sequence

def handoff (s : TransferManager) : Handoff Nat Outcome where
  accepted := List.range s.accepted.length
  waiting := s.queue.map Task.sequence
  held := s.workers.filterMap held
  finished := s.resolved

/-! ## what a step does -/

/-- the flag of the task that the stage is about -/
def flag (s : TransferManager) (stage : Stage) : Bool :=
  (stage.task.map fun t => decide (t.sequence ∈ s.cancelled)).getD false

theorem flag_spec {stage : Stage} {t : Task} (ht : stage.task = some t) (h : s.flag stage = true) :
    t.sequence ∈ s.cancelled := by
  unfold flag at h
  rw [ht] at h
  exact of_decide_eq_true h

inductive Effect (env : Environment) (s : TransferManager) : TransferManager → Prop where
  | submit (r : TransferRequest) (open_ : s.stopping = false) : Effect env s { s with
      accepted := s.accepted ++ [⟨r, s.accepted.length⟩]
      queue := ⟨r, s.accepted.length⟩ :: s.queue }
  | refuse : Effect env s s
  | cancel (n : Nat) : Effect env s { s with cancelled := n :: s.cancelled }
  | take (w : Nat) (t : Task) (waits : s.workers[w]? = some .waiting)
      (best : best higherPriority s.queue = some t) : Effect env s { s with
        queue := s.queue.erase t
        workers := s.workers.set w (.popped t) }
  | advance (w : Nat) (stage : Stage) (answers : Answers) (at_ : s.workers[w]? = some stage)
      (task : stage.task.isSome = true) (order : Nat) : Effect env s { s with
        workers := s.workers.set w
          (stage.advance env answers (s.flag stage) s.nextCompletion s.streams).1
        streams := (stage.advance env answers (s.flag stage) s.nextCompletion s.streams).2
        nextCompletion := order }
  | deliver (w : Nat) (t : Task) (o : Outcome) (at_ : s.workers[w]? = some (.delivering t o)) :
      Effect env s { s with
        workers := s.workers.set w .waiting
        resolved := (t.sequence, o) :: s.resolved }
  | exit (w : Nat) (waits : s.workers[w]? = some .waiting) (stopping : s.stopping = true)
      (empty : s.queue = []) : Effect env s { s with workers := s.workers.set w .exited }
  | stop (open_ : s.stopping = false) : Effect env s { s with
      stopping := true
      cancelled := s.queue.map Task.sequence ++ s.cancelled
      shutdowns := s.shutdowns ++ [.joining] }
  | late (stopping : s.stopping = true) :
      Effect env s { s with shutdowns := s.shutdowns ++ [.returned] }
  | join (call : Nat) (joins : s.shutdowns[call]? = some .joining)
      (exited : ∀ stage ∈ s.workers, stage = .exited) :
      Effect env s { s with shutdowns := s.shutdowns.set call .returned }

theorem work_effect {w : Nat} (h : s.work env w answers = some s') : Effect env s s' := by
  unfold work at h
  cases hw : s.workers[w]? with
  | none => rw [hw] at h; cases h
  | some stage =>
    rw [hw] at h
    cases stage with
    | waiting => cases h
    | exited => cases h
    | delivering t o =>
      obtain rfl := Option.some.inj h
      exact .deliver w t o hw
    | _ =>
      obtain rfl := Option.some.inj h
      exact .advance w _ answers hw rfl _

/-- a call of `submit` throws, or queues one task more -/
theorem step_submit {r : TransferRequest} (h : step env (.submit r) s = some s') :
    s' = s ∨ s.stopping = false ∧ s' = { s with
      accepted := s.accepted ++ [⟨r, s.accepted.length⟩]
      queue := ⟨r, s.accepted.length⟩ :: s.queue } := by
  unfold step at h
  cases hsubmit : s.submit r with
  | error e =>
    simp only [hsubmit] at h
    exact .inl (Option.some.inj h).symm
  | ok s₁ =>
    simp only [hsubmit] at h
    obtain rfl := Option.some.inj h
    obtain ⟨-, hsubmit⟩ := Outcome.throwIf_bind_eq_ok.mp hsubmit
    obtain ⟨hopen, hsubmit⟩ := Outcome.throwIf_bind_eq_ok.mp hsubmit
    exact .inr ⟨Bool.eq_false_iff.mpr hopen, (Except.ok.inj hsubmit).symm⟩

theorem step_effect {a : Action} (h : step env a s = some s') : Effect env s s' := by
  cases a with
  | submit r =>
    rcases step_submit h with rfl | ⟨hopen, rfl⟩
    · exact .refuse
    · exact .submit r hopen
  | cancel n =>
    unfold step at h
    dsimp only at h
    split at h
    · obtain rfl := Option.some.inj h
      exact .cancel n
    · cases h
  | take w =>
    replace h : s.take w = some s' := h
    unfold take at h
    split at h
    · next t hw hbest =>
      obtain rfl := Option.some.inj h
      exact .take w t hw hbest
    · cases h
  | work w answers => exact work_effect h
  | exit w =>
    replace h : s.exit w = some s' := h
    unfold exit at h
    split at h
    · next hw =>
      split at h
      · next hc =>
        obtain rfl := Option.some.inj h
        exact .exit w hw hc.1 hc.2
      · cases h
    · cases h
  | shutdown =>
    obtain rfl := Option.some.inj h
    unfold shutdown
    split
    · next hstopping => exact .late hstopping
    · next hopen => exact .stop (Bool.eq_false_iff.mpr hopen)
  | join call =>
    replace h : s.join call = some s' := h
    unfold join at h
    split at h
    · next hc =>
      obtain rfl := Option.some.inj h
      refine .join call hc.1 fun stage hstage => ?_
      have hmatch := List.all_eq_true.mp hc.2 stage hstage
      cases stage with
      | exited => rfl
      | _ => exact nomatch hmatch
    · cases h

/-! ## nothing is lost -/

theorem handoff_set {w : Nat} {stage : Stage} (stage' : Stage) (hw : s.workers[w]? = some stage) :
    ∃ rest, (s.workers.filterMap held).Perm ((held stage).toList ++ rest) ∧
      ((s.workers.set w stage').filterMap held).Perm ((held stage').toList ++ rest) :=
  filterMap_set_perm stage' hw

/-- on the tasks, every step is a move -/
theorem Effect.move (h : Effect env s s') : Handoff.Move s.handoff s'.handoff := by
  cases h with
  | submit r =>
    refine .accept s.accepted.length ?_ (.refl _) rfl rfl
    show (List.range (s.accepted ++ [_]).length).Perm _
    rw [List.length_append, List.length_singleton, List.range_succ]
    exact List.perm_append_singleton ..
  | take w t waits hbest =>
    obtain ⟨rest, hheld, hheld'⟩ := handoff_set (.popped t) waits
    exact .take t.sequence rfl ((List.perm_cons_erase (best_mem hbest)).map Task.sequence)
      (hheld'.trans (hheld.symm.cons t.sequence)) rfl
  | advance w stage answers hw htask order =>
    have hsame : held (stage.advance env answers (s.flag stage) s.nextCompletion s.streams).1 =
        held stage := congrArg (Option.map Task.sequence) (stage.advance_task ..)
    obtain ⟨rest, hheld, hheld'⟩ := handoff_set _ hw
    rw [hsame] at hheld'
    exact .stay rfl rfl (hheld'.trans hheld.symm) rfl
  | deliver w t o hw =>
    obtain ⟨rest, hheld, hheld'⟩ := handoff_set .waiting hw
    exact .finish t.sequence o rfl rfl (hheld.trans (hheld'.symm.cons t.sequence)) rfl
  | exit w waits =>
    obtain ⟨rest, hheld, hheld'⟩ := handoff_set .exited waits
    exact .stay rfl rfl (hheld'.trans hheld.symm) rfl
  | _ => exact .stay rfl rfl (.refl _) rfl

/-! ## the invariant -/

structure Inv (env : Environment) (s : TransferManager) : Prop where
  numbered : ∀ (n : Nat) (t : Task), s.accepted[n]? = some t → t.sequence = n
  queued : ∀ t ∈ s.queue, t ∈ s.accepted
  held : ∀ stage ∈ s.workers, ∀ t, stage.task = some t → t ∈ s.accepted
  sound : ∀ stage ∈ s.workers, stage.Sound env s.cancelled
  conserved : s.handoff.Conserved
  outcomes : ∀ n o, (n, o) ∈ s.resolved →
    ∃ t, s.accepted[n]? = some t ∧ Right env s.cancelled t o
  crew : s.workers ≠ []
  exited : Stage.exited ∈ s.workers → s.stopping = true ∧ s.queue = []
  begun : s.shutdowns = [] ↔ s.stopping = false
  joined : s.shutdowns.head? = some .returned → ∀ stage ∈ s.workers, stage = .exited
  handles : s.streams.openStreams = 0 ∧ s.streams.openEvents = 0

theorem mem_set_cases {w : Nat} {stage stage' : Stage} (h : stage ∈ s.workers.set w stage') :
    stage = stage' ∨ stage ∈ s.workers := (List.mem_or_eq_of_mem_set h).symm

theorem set_ne_nil {w : Nat} {stage : Stage} (h : s.workers ≠ []) : s.workers.set w stage ≠ [] := by
  rw [Ne, List.set_eq_nil_iff]
  exact h

theorem Inv.at_sequence (h : Inv env s) {t : Task} (ht : t ∈ s.accepted) :
    s.accepted[t.sequence]? = some t := by
  obtain ⟨n, hn⟩ := List.mem_iff_getElem?.mp ht
  rw [h.numbered n t hn]
  exact hn

/-- a worker that is somewhere else has not been joined -/
theorem Inv.not_joined (h : Inv env s) {w : Nat} {stage : Stage} (hw : s.workers[w]? = some stage)
    (hne : stage ≠ .exited) : s.shutdowns.head? ≠ some .returned := fun hj =>
  hne (h.joined hj stage (List.mem_of_getElem? hw))

theorem Inv.submit (h : Inv env s) (r : TransferRequest) (hopen : s.stopping = false)
    (hconserved : Handoff.Conserved (handoff { s with
      accepted := s.accepted ++ [⟨r, s.accepted.length⟩]
      queue := ⟨r, s.accepted.length⟩ :: s.queue })) : Inv env { s with
      accepted := s.accepted ++ [⟨r, s.accepted.length⟩]
      queue := ⟨r, s.accepted.length⟩ :: s.queue } := by
  have hkeep : ∀ (n : Nat) (t : Task), s.accepted[n]? = some t →
      (s.accepted ++ [⟨r, s.accepted.length⟩])[n]? = some t := fun n t hn => by
    rw [List.getElem?_append_left (List.getElem?_eq_some_iff.mp hn).1]
    exact hn
  refine { h with
    numbered := fun n t ht => ?_
    queued := fun t ht => ?_
    held := fun stage hstage t ht => List.mem_append_left _ (h.held stage hstage t ht)
    conserved := hconserved
    outcomes := fun n o ho => ?_
    exited := fun hexited => ?_ }
  · rcases Nat.lt_or_ge n s.accepted.length with hlt | hge
    · rw [List.getElem?_append_left hlt] at ht
      exact h.numbered n t ht
    · rw [List.getElem?_append_right hge, List.getElem?_singleton] at ht
      split at ht
      · obtain rfl := Option.some.inj ht
        dsimp only
        omega
      · exact nomatch ht
  · rcases List.mem_cons.mp ht with rfl | ht
    · exact List.mem_append_right _ List.mem_cons_self
    · exact List.mem_append_left _ (h.queued t ht)
  · obtain ⟨t, ht, hright⟩ := h.outcomes n o ho
    exact ⟨t, hkeep n t ht, hright⟩
  · exact absurd (hopen.symm.trans (h.exited hexited).1) (by decide)

/-- a worker goes on, with a task that is known -/
theorem Inv.proceed (h : Inv env s) {w : Nat} {stage : Stage} (stage' : Stage)
    (hw : s.workers[w]? = some stage) (hne : stage ≠ .exited) (hne' : stage' ≠ .exited)
    (htask : ∀ t, stage'.task = some t → t ∈ s.accepted) (hsound : stage'.Sound env s.cancelled)
    {queue : List Task} (hqueue : ∀ t ∈ queue, t ∈ s.queue) {streams : Streams} {order : Nat}
    (hhandles : streams.openStreams = 0 ∧ streams.openEvents = 0)
    {resolved : List (Nat × Outcome)} (houtcomes : ∀ n o, (n, o) ∈ resolved →
      ∃ t, s.accepted[n]? = some t ∧ Right env s.cancelled t o)
    (hconserved : Handoff.Conserved (handoff { s with
      queue := queue
      workers := s.workers.set w stage'
      streams := streams
      nextCompletion := order
      resolved := resolved })) : Inv env { s with
      queue := queue
      workers := s.workers.set w stage'
      streams := streams
      nextCompletion := order
      resolved := resolved } := by
  refine { h with
    queued := fun t ht => h.queued t (hqueue t ht)
    held := fun x hx => ?_
    sound := fun x hx => ?_
    conserved := hconserved
    outcomes := houtcomes
    crew := set_ne_nil h.crew
    exited := fun hx => ?_
    joined := fun hj => absurd hj (h.not_joined hw hne)
    handles := hhandles }
  · rcases mem_set_cases hx with rfl | hx
    · exact htask
    · exact h.held x hx
  · rcases mem_set_cases hx with rfl | hx
    · exact hsound
    · exact h.sound x hx
  · rcases mem_set_cases hx with hx | hx
    · exact absurd hx.symm hne'
    · obtain ⟨hstopping, hempty⟩ := h.exited hx
      exact ⟨hstopping, List.eq_nil_iff_forall_not_mem.mpr fun t ht =>
        absurd (hqueue t ht) (by rw [hempty]; exact List.not_mem_nil)⟩

theorem Stage.ne_exited {stage : Stage} (h : stage.task.isSome = true) : stage ≠ .exited := by
  rintro rfl
  exact nomatch h

theorem Effect.inv (he : Effect env s s') (h : Inv env s) : Inv env s' := by
  have hconserved := he.move.conserved h.conserved
  cases he with
  | submit r hopen => exact h.submit r hopen hconserved
  | refuse => exact h
  | cancel n =>
    have hsub : ∀ m ∈ s.cancelled, m ∈ n :: s.cancelled := fun m => List.mem_cons_of_mem n
    refine { h with
      sound := fun stage hstage => (h.sound stage hstage).mono hsub
      outcomes := fun m o ho => ?_ }
    obtain ⟨t, ht, hright⟩ := h.outcomes m o ho
    exact ⟨t, ht, hright.mono hsub⟩
  | take w t waits hbest =>
    refine h.proceed (.popped t) waits (by simp) (by simp) ?_ trivial (fun u => List.mem_of_mem_erase) h.handles
      h.outcomes hconserved
    rintro u ⟨⟩
    exact h.queued t (best_mem hbest)
  | advance w stage answers hw htask order =>
    have hmem := List.mem_of_getElem? hw
    have hsame : (stage.advance env answers (s.flag stage) s.nextCompletion s.streams).1.task =
        stage.task := stage.advance_task ..
    refine h.proceed _ hw (Stage.ne_exited htask) (Stage.ne_exited (by rwa [hsame])) ?_ ?_
      (fun t ht => ht) ?_ h.outcomes hconserved
    · rw [hsame]
      exact h.held stage hmem
    · exact Stage.advance_sound (h.sound stage hmem) fun t => flag_spec
    · obtain ⟨hstreams, hevents⟩ := Stage.advance_handles (h.sound stage hmem)
      exact ⟨hstreams.trans h.handles.1, hevents.trans h.handles.2⟩
  | deliver w t o hw =>
    have hmem := List.mem_of_getElem? hw
    refine h.proceed .waiting hw (by simp) (by simp) (fun u hu => nomatch hu) trivial (fun t ht => ht)
      h.handles (fun n o' ho => ?_) hconserved
    rcases List.mem_cons.mp ho with heq | ho
    · obtain ⟨rfl, rfl⟩ := Prod.mk.inj heq
      exact ⟨t, h.at_sequence (h.held _ hmem t rfl), h.sound _ hmem⟩
    · exact h.outcomes n o' ho
  | exit w waits hstopping hempty =>
    refine { h with
      held := fun x hx => ?_
      sound := fun x hx => ?_
      conserved := hconserved
      crew := set_ne_nil h.crew
      exited := fun _ => ⟨hstopping, hempty⟩
      joined := fun hj => absurd hj (h.not_joined waits (by simp)) }
    · rcases mem_set_cases hx with rfl | hx
      · exact fun t ht => nomatch ht
      · exact h.held x hx
    · rcases mem_set_cases hx with rfl | hx
      · exact trivial
      · exact h.sound x hx
  | stop hopen =>
    have hsub : ∀ m ∈ s.cancelled, m ∈ s.queue.map Task.sequence ++ s.cancelled :=
      fun m => List.mem_append_right _
    have hnil := h.begun.mpr hopen
    refine { h with
      sound := fun stage hstage => (h.sound stage hstage).mono hsub
      outcomes := fun m o ho => ?_
      exited := fun hx => ⟨rfl, (h.exited hx).2⟩
      begun := by simp
      joined := fun hj => ?_ }
    · obtain ⟨t, ht, hright⟩ := h.outcomes m o ho
      exact ⟨t, ht, hright.mono hsub⟩
    · replace hj : (s.shutdowns ++ [ShutdownCall.joining]).head? = some .returned := hj
      rw [hnil] at hj
      exact absurd hj (by decide)
  | late hstopping =>
    have hne : s.shutdowns ≠ [] := fun hnil =>
      absurd (hstopping.symm.trans (h.begun.mp hnil)) (by decide)
    refine { h with
      begun := by simp [hstopping]
      joined := fun hj => h.joined ?_ }
    rwa [List.head?_append_of_ne_nil _ hne] at hj
  | join call joins hexited =>
    refine { h with
      begun := ?_
      joined := fun _ => hexited }
    rw [List.set_eq_nil_iff]
    exact h.begun

theorem inv_make {workerCount : Nat} (h : make env workerCount = .ok s) : Inv env s := by
  obtain ⟨hcount, h⟩ := Outcome.throwIf_bind_eq_ok.mp h
  obtain ⟨-, h⟩ := Outcome.throwIf_bind_eq_ok.mp h
  obtain ⟨-, h⟩ := Outcome.throwIf_bind_eq_ok.mp h
  obtain rfl := Except.ok.inj h
  have hwaiting : ∀ stage ∈ List.replicate workerCount Stage.waiting, stage = .waiting :=
    fun stage hstage => List.eq_of_mem_replicate hstage
  exact
    { numbered := fun n t ht => nomatch ht
      queued := fun t ht => nomatch ht
      held := fun stage hstage t ht => by
        rw [hwaiting stage hstage] at ht
        exact nomatch ht
      sound := fun stage hstage => by
        rw [hwaiting stage hstage]
        exact trivial
      conserved := by
        unfold Handoff.Conserved Handoff.places handoff
        rw [List.filterMap_replicate_of_none rfl]
        exact .refl _
      outcomes := fun n o ho => nomatch ho
      crew := fun hnil => hcount (by simpa using hnil)
      exited := fun hx => nomatch hwaiting _ hx
      begun := ⟨fun _ => rfl, fun _ => rfl⟩
      joined := fun hj => nomatch hj
      handles := ⟨rfl, rfl⟩ }

theorem run_inv {workerCount : Nat} {s₀ : TransferManager} {as : List Action}
    (hmake : make env workerCount = .ok s₀) (hrun : run env s₀ as = some s) : Inv env s :=
  Runs.run_invariant (fun _ _ _ hstep => (step_effect hstep).inv) (inv_make hmake) hrun

end TransferManager

end HyperMoE.Memory
