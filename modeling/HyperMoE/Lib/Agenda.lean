import Mathlib.Data.Prod.Lex
import Mathlib.Data.List.Perm.Basic
import Mathlib.Logic.Function.Basic

/-!
# A queue that keeps stale entries

A task that gains rank is put into the queue once more.  Its older entries stay there: they are of an
earlier generation, and are skipped when they come up.

* `Agenda`            what the tasks stand at, and the entries in the order in which they are popped;
* `Step`              a task is added, raised or claimed, or the stale rest is thrown away;
* `noted`             the number under which each task was put into the queue last;
* `Ordered`           the queue is in order, and every waiting task has an entry that says what it is;
* `Step.ordered`      every step keeps that;
* `Ordered.foremost`  so the first live entry is that of the foremost waiting task.
-/

namespace HyperMoE.Lib

structure Agenda.Slot (π : Type) where
  rank : π
  generation : Nat
  started : Bool

structure Agenda.Entry (π : Type) where
  task : Nat
  rank : π
  number : Nat
  generation : Nat

structure Agenda (π : Type) where
  slots : Nat → Agenda.Slot π
  next : Nat
  queue : List (Agenda.Entry π)
  /-- of the next entry -/
  number : Nat

namespace Agenda

variable {π : Type} {a a' : Agenda π} {up : π → π → Prop}

/-! ## the order -/

/-- of two tasks of one rank, the one that was put into the queue first comes first -/
def standing (rank : π) (number : Nat) : π ×ₗ ℕᵒᵈ := toLex (rank, OrderDual.toDual number)

def Entry.key (e : Entry π) : π ×ₗ ℕᵒᵈ := standing e.rank e.number

/-- the entry still stands for its task -/
def Live (a : Agenda π) (e : Entry π) : Prop :=
  (a.slots e.task).started = false ∧ e.generation = (a.slots e.task).generation

section

variable [LinearOrder π]

theorem standing_lt_iff {r r' : π} {n n' : Nat} :
    standing r n < standing r' n' ↔ r < r' ∨ r = r' ∧ n' < n := Prod.Lex.toLex_lt_toLex

def insert (e : Entry π) : List (Entry π) → List (Entry π)
  | [] => [e]
  | x :: rest => if x.key < e.key then e :: x :: rest else x :: insert e rest

theorem mem_insert {e x : Entry π} {queue : List (Entry π)} :
    x ∈ insert e queue ↔ x = e ∨ x ∈ queue := by
  induction queue with
  | nil => simp [insert]
  | cons y rest ih =>
    unfold insert
    split
    · simp
    · rw [List.mem_cons, ih, List.mem_cons]
      grind

/-- from the foremost to the last -/
def Sorted (queue : List (Entry π)) : Prop := queue.Pairwise fun e e' => e'.key < e.key

theorem sorted_insert {e : Entry π} {queue : List (Entry π)} (h : Sorted queue)
    (hnew : ∀ x ∈ queue, x.number ≠ e.number) : Sorted (insert e queue) := by
  induction queue with
  | nil => exact List.pairwise_singleton ..
  | cons y rest ih =>
    obtain ⟨hy, hrest⟩ := List.pairwise_cons.mp h
    unfold insert
    split
    · next hlt =>
      refine List.pairwise_cons.mpr ⟨fun x hx => ?_, h⟩
      rcases List.mem_cons.mp hx with rfl | hx
      · exact hlt
      · exact (hy x hx).trans hlt
    · next hlt =>
      have hne : e.key ≠ y.key := by
        intro he
        exact hnew y List.mem_cons_self (congrArg (fun k : π ×ₗ ℕᵒᵈ => OrderDual.ofDual (ofLex k).2) he).symm
      refine List.pairwise_cons.mpr ⟨fun x hx => ?_, ih hrest fun x hx => hnew x (.tail _ hx)⟩
      rcases mem_insert.mp hx with rfl | hx
      · exact lt_of_le_of_ne (not_lt.mp hlt) hne
      · exact hy x hx

/-! ## steps -/

/-- the task goes into the queue with its rank -/
def enqueue (t : Nat) (slot : Slot π) (a : Agenda π) : Agenda π :=
  { a with
    slots := Function.update a.slots t slot
    queue := insert ⟨t, slot.rank, a.number, slot.generation⟩ a.queue
    number := a.number + 1 }

def add (rank : π) (a : Agenda π) : Agenda π :=
  { a.enqueue a.next ⟨rank, 0, false⟩ with next := a.next + 1 }

inductive Step (up : π → π → Prop) : Agenda π → Agenda π → Prop where
  | same {a : Agenda π} : Step up a a
  | add {a : Agenda π} (rank : π) : Step up a (a.add rank)
  | raise {a : Agenda π} {t : Nat} {rank : π} (ht : t < a.next) (hs : (a.slots t).started = false)
      (hr : up (a.slots t).rank rank) :
      Step up a (a.enqueue t ⟨rank, (a.slots t).generation + 1, false⟩)
  | claim {a : Agenda π} {before after : List (Entry π)} {e : Entry π}
      (hq : a.queue = before ++ e :: after) (hstale : ∀ x ∈ before, ¬ a.Live x) (hl : a.Live e) :
      Step up a { a with
        queue := after
        slots := Function.update a.slots e.task { a.slots e.task with started := true } }
  | drain {a : Agenda π} (hstale : ∀ x ∈ a.queue, ¬ a.Live x) : Step up a { a with queue := [] }

/-- the last numbers of the tasks, after the step from `a` to `a'`: a new entry has the number that
was next in `a` -/
def noted (a a' : Agenda π) (latest : Nat → Nat) (t : Nat) : Nat :=
  if a'.queue.any fun e => e.task = t ∧ e.number = a.number then a.number else latest t

structure Ordered (a : Agenda π) (latest : Nat → Nat) : Prop where
  sorted : Sorted a.queue
  numbered : ∀ e ∈ a.queue, e.number < a.number
  known : ∀ e ∈ a.queue, e.task < a.next ∧ e.generation ≤ (a.slots e.task).generation
  current : ∀ e ∈ a.queue, a.Live e → e.rank = (a.slots e.task).rank ∧ e.number = latest e.task
  waits : ∀ t < a.next, (a.slots t).started = false → ∃ e ∈ a.queue, e.task = t ∧ a.Live e

namespace Ordered

variable {latest : Nat → Nat}

/-- nothing new came into the queue -/
theorem noted_eq (h : Ordered a latest) (hq : ∀ e ∈ a'.queue, e ∈ a.queue) :
    noted a a' latest = latest := by
  funext t
  unfold noted
  rw [if_neg]
  intro hany
  obtain ⟨e, he, hn⟩ := List.any_eq_true.mp hany
  have hlt := h.numbered e (hq e he)
  simp only [decide_eq_true_eq] at hn
  omega

theorem noted_enqueue (h : Ordered a latest) (t : Nat) (slot : Slot π) {a' : Agenda π}
    (hq : a'.queue = (a.enqueue t slot).queue) :
    noted a a' latest = Function.update latest t a.number := by
  funext t'
  have hnew : (a'.queue.any fun e => decide (e.task = t' ∧ e.number = a.number)) = decide (t' = t) := by
    rw [Bool.eq_iff_iff, List.any_eq_true, decide_eq_true_eq, hq]
    constructor
    · rintro ⟨e, he, hn⟩
      rcases mem_insert.mp he with rfl | he
      · simpa using (of_decide_eq_true hn).1.symm
      · have hlt := h.numbered e he
        simp only [decide_eq_true_eq] at hn
        omega
    · rintro rfl
      exact ⟨_, mem_insert.mpr (.inl rfl), by simp⟩
  unfold noted
  rw [hnew, Function.update_apply]
  simp only [decide_eq_true_eq]

/-- a task goes into the queue with a generation that no entry of it has yet -/
theorem enqueue (h : Ordered a latest) {t next : Nat} {slot : Slot π} (ht : t < next)
    (hn : a.next ≤ next) (ho : ∀ t' < next, t' ≠ t → t' < a.next) (hs : slot.started = false)
    (hg : ∀ e ∈ a.queue, e.task = t → e.generation < slot.generation) :
    Ordered { a.enqueue t slot with next := next } (Function.update latest t a.number) := by
  have hself : (Function.update a.slots t slot) t = slot := Function.update_self ..
  have hne : ∀ t', t' ≠ t → (Function.update a.slots t slot) t' = a.slots t' :=
    fun t' e => Function.update_of_ne e ..
  -- what is live is the new entry, or another task's
  have hlive : ∀ e ∈ a.queue, Live { a.enqueue t slot with next := next } e → e.task ≠ t := by
    rintro e he ⟨-, hgen⟩ rfl
    replace hgen : e.generation = ((Function.update a.slots e.task slot) e.task).generation := hgen
    rw [hself] at hgen
    exact absurd hgen (Nat.ne_of_lt (hg e he rfl))
  refine ⟨?_, ?_, ?_, ?_, ?_⟩
  · exact sorted_insert h.sorted fun x hx => Nat.ne_of_lt (h.numbered x hx)
  · intro e he
    show e.number < a.number + 1
    rcases mem_insert.mp he with rfl | he
    · exact Nat.lt_succ_self _
    · exact Nat.lt_succ_of_lt (h.numbered e he)
  · intro e he
    show e.task < next ∧ e.generation ≤ ((Function.update a.slots t slot) e.task).generation
    rcases mem_insert.mp he with rfl | he
    · exact ⟨ht, by rw [hself]⟩
    · obtain ⟨hk, hgen⟩ := h.known e he
      refine ⟨Nat.lt_of_lt_of_le hk hn, ?_⟩
      by_cases e' : e.task = t
      · rw [e', hself]
        exact Nat.le_of_lt (hg e he e')
      · rw [hne _ e']
        exact hgen
  · intro e he hl
    show e.rank = ((Function.update a.slots t slot) e.task).rank ∧
      e.number = Function.update latest t a.number e.task
    rcases mem_insert.mp he with rfl | he
    · rw [hself, Function.update_self]
      exact ⟨rfl, rfl⟩
    · have e' := hlive e he hl
      replace hl : ((Function.update a.slots t slot) e.task).started = false ∧
        e.generation = ((Function.update a.slots t slot) e.task).generation := hl
      rw [hne _ e'] at hl ⊢
      rw [Function.update_of_ne e']
      exact h.current e he hl
  · intro t' ht' hs'
    show ∃ e ∈ insert _ a.queue, e.task = t' ∧ ((Function.update a.slots t slot) e.task).started = false ∧
      e.generation = ((Function.update a.slots t slot) e.task).generation
    by_cases e' : t' = t
    · refine ⟨_, mem_insert.mpr (.inl rfl), e'.symm, ?_⟩
      rw [hself]
      exact ⟨hs, rfl⟩
    · replace hs' : ((Function.update a.slots t slot) t').started = false := hs'
      rw [hne _ e'] at hs'
      obtain ⟨e, he, rfl, hl⟩ := h.waits t' (ho t' ht' e') hs'
      refine ⟨e, mem_insert.mpr (.inr he), rfl, ?_⟩
      rw [hne _ e']
      exact hl

/-- the first live entry is that of the foremost waiting task -/
theorem foremost (h : Ordered a latest) {before after : List (Entry π)} {e : Entry π}
    (hq : a.queue = before ++ e :: after) (hstale : ∀ x ∈ before, ¬ a.Live x) (hl : a.Live e)
    {t : Nat} (ht : t < a.next) (hs : (a.slots t).started = false) (hne : t ≠ e.task) :
    standing (a.slots t).rank (latest t) <
      standing (a.slots e.task).rank (latest e.task) := by
  have hmem : e ∈ a.queue := by rw [hq]; simp
  obtain ⟨x, hx, rfl, hlx⟩ := h.waits t ht hs
  obtain ⟨hr, hn⟩ := h.current e hmem hl
  obtain ⟨hr', hn'⟩ := h.current x hx hlx
  rw [← hr, ← hn, ← hr', ← hn']
  show x.key < e.key
  rw [hq] at hx
  have hsorted := h.sorted
  rw [hq] at hsorted
  -- a live entry does not come before the first one
  rcases List.mem_append.mp hx with hx | hx
  · exact absurd hlx (hstale x hx)
  · rcases List.mem_cons.mp hx with rfl | hx
    · exact absurd rfl hne
    · exact List.rel_of_pairwise_cons (List.pairwise_append.mp hsorted).2.1 hx

/-- entries that are not live go -/
theorem shrink (h : Ordered a latest) {queue : List (Entry π)} (hsub : queue.Sublist a.queue)
    (hkeeps : ∀ e ∈ a.queue, a.Live e → e ∈ queue) : Ordered { a with queue := queue } latest where
  sorted := h.sorted.sublist hsub
  numbered e he := h.numbered e (hsub.subset he)
  known e he := h.known e (hsub.subset he)
  current e he hl := h.current e (hsub.subset he) hl
  waits t ht hs := by
    obtain ⟨e, he, het, hl⟩ := h.waits t ht hs
    exact ⟨e, hkeeps e he hl, het, hl⟩

theorem claim (h : Ordered a latest) {before after : List (Entry π)} {e : Entry π}
    (hq : a.queue = before ++ e :: after) (hstale : ∀ x ∈ before, ¬ a.Live x) :
    Ordered { a with
      queue := after
      slots := Function.update a.slots e.task { a.slots e.task with started := true } } latest := by
  have hsub : after.Sublist a.queue := by
    rw [hq]
    exact (List.sublist_cons_self e after).trans (List.sublist_append_right before _)
  have hself : (Function.update a.slots e.task { a.slots e.task with started := true }) e.task =
    { a.slots e.task with started := true } := Function.update_self ..
  have hne : ∀ t, t ≠ e.task → (Function.update a.slots e.task
      { a.slots e.task with started := true }) t = a.slots t := fun t ht => Function.update_of_ne ht ..
  have hlive : ∀ x, Live { a with
      queue := after
      slots := Function.update a.slots e.task { a.slots e.task with started := true } } x →
      x.task ≠ e.task ∧ a.Live x := by
    intro x hl
    have hxe : x.task ≠ e.task := by
      intro hxe
      have hst : ((Function.update a.slots e.task { a.slots e.task with started := true })
        x.task).started = false := hl.1
      rw [hxe, hself] at hst
      exact nomatch hst
    refine ⟨hxe, ?_⟩
    replace hl : ((Function.update a.slots e.task _) x.task).started = false ∧
      x.generation = ((Function.update a.slots e.task _) x.task).generation := hl
    rw [hne _ hxe] at hl
    exact hl
  refine ⟨h.sorted.sublist hsub, fun x hx => h.numbered x (hsub.subset hx), ?_, ?_, ?_⟩
  · intro x hx
    obtain ⟨hk, hg⟩ := h.known x (hsub.subset hx)
    refine ⟨hk, ?_⟩
    show x.generation ≤ ((Function.update a.slots e.task _) x.task).generation
    by_cases hxe : x.task = e.task
    · rw [hxe, hself]
      exact hxe ▸ hg
    · rw [hne _ hxe]
      exact hg
  · intro x hx hl
    obtain ⟨hxe, hl'⟩ := hlive x hl
    obtain ⟨hr, hn⟩ := h.current x (hsub.subset hx) hl'
    refine ⟨?_, hn⟩
    show x.rank = ((Function.update a.slots e.task _) x.task).rank
    rw [hne _ hxe]
    exact hr
  · intro t ht hs
    replace hs : ((Function.update a.slots e.task { a.slots e.task with started := true }) t).started =
      false := hs
    have hte : t ≠ e.task := by
      rintro rfl
      rw [hself] at hs
      exact nomatch hs
    rw [hne t hte] at hs
    obtain ⟨x, hx, rfl, hl⟩ := h.waits t ht hs
    refine ⟨x, ?_, rfl, ?_⟩
    · rw [hq] at hx
      rcases List.mem_append.mp hx with hx | hx
      · exact absurd hl (hstale x hx)
      · rcases List.mem_cons.mp hx with rfl | hx
        · exact absurd rfl hte
        · exact hx
    · show ((Function.update a.slots e.task _) x.task).started = false ∧
        x.generation = ((Function.update a.slots e.task _) x.task).generation
      rw [hne _ hte]
      exact hl

end Ordered

theorem Step.ordered (hstep : Step up a a') {latest : Nat → Nat} (h : Ordered a latest) :
    Ordered a' (noted a a' latest) := by
  cases hstep with
  | same =>
    rw [h.noted_eq fun e he => he]
    exact h
  | add rank =>
    rw [h.noted_enqueue a.next ⟨rank, 0, false⟩ (show (a.add rank).queue = _ from rfl)]
    refine h.enqueue (Nat.lt_succ_self _) (Nat.le_succ _) ?_ rfl ?_
    · intro t ht hne
      omega
    · intro e he ht
      have hlt := (h.known e he).1
      omega
  | @raise t rank ht hs hr =>
    rw [h.noted_enqueue t _ rfl]
    show Ordered { a.enqueue t _ with next := a.next } _
    refine h.enqueue ht (Nat.le_refl _) (fun t' ht' _ => ht') rfl ?_
    intro e he het
    have hg := (h.known e he).2
    rw [het] at hg
    exact Nat.lt_succ_of_le hg
  | @claim before after e hq hstale hl =>
    rw [h.noted_eq fun x hx => by rw [hq]; simp [show x ∈ after from hx]]
    exact h.claim hq hstale
  | drain hstale =>
    rw [h.noted_eq fun x hx => absurd hx List.not_mem_nil]
    exact h.shrink (List.nil_sublist _) fun e he hl => absurd hl (hstale e he)

/-- a step raises the rank of a waiting task, or leaves it, and once started the task keeps it -/
theorem Step.slot (hstep : Step up a a') {t : Nat} (ht : t < a.next) : t < a'.next ∧
    ((a.slots t).started = true → (a'.slots t).started = true ∧ (a'.slots t).rank = (a.slots t).rank) ∧
    ((a'.slots t).rank = (a.slots t).rank ∨ up (a.slots t).rank (a'.slots t).rank) := by
  cases hstep with
  | same => exact ⟨ht, fun hs => ⟨hs, rfl⟩, .inl rfl⟩
  | add rank =>
    have hsame : (Function.update a.slots a.next ⟨rank, 0, false⟩) t = a.slots t :=
      Function.update_of_ne (Nat.ne_of_lt ht) ..
    refine ⟨Nat.lt_succ_of_lt ht, fun hs => ?_, .inl (congrArg Slot.rank hsame)⟩
    exact ⟨(congrArg Slot.started hsame).trans hs, congrArg Slot.rank hsame⟩
  | @raise t' rank _ hs hr =>
    refine ⟨ht, ?_⟩
    show (_ → ((Function.update a.slots t' _) t).started = true ∧
      ((Function.update a.slots t' _) t).rank = _) ∧
      (((Function.update a.slots t' _) t).rank = _ ∨ up _ ((Function.update a.slots t' _) t).rank)
    by_cases e : t = t'
    · subst e
      rw [Function.update_self]
      exact ⟨fun hs' => absurd (hs.symm.trans hs') (by simp), .inr hr⟩
    · rw [Function.update_of_ne e]
      exact ⟨fun hs' => ⟨hs', rfl⟩, .inl rfl⟩
  | @claim before after e _ _ hl =>
    refine ⟨ht, ?_⟩
    show (_ → ((Function.update a.slots e.task _) t).started = true ∧
      ((Function.update a.slots e.task _) t).rank = _) ∧
      (((Function.update a.slots e.task _) t).rank = _ ∨
        up _ ((Function.update a.slots e.task _) t).rank)
    by_cases h : t = e.task
    · subst h
      rw [Function.update_self]
      exact ⟨fun _ => ⟨rfl, rfl⟩, .inl rfl⟩
    · rw [Function.update_of_ne h]
      exact ⟨fun hs => ⟨hs, rfl⟩, .inl rfl⟩
  | drain _ => exact ⟨ht, fun hs => ⟨hs, rfl⟩, .inl rfl⟩

end

end Agenda

end HyperMoE.Lib
