import HyperMoE.Lib.Dispatch.Linked

/-!
# Shared tasks, dispatched once: what has been said

* `Recorded`          for every request, what its callback was called with and what its promise was
                      given, by the stage of its task or of its answer;
* `Step.recorded`     every step keeps it;
* `settled_of_rest`   with an empty queue and no worker at work, every task has been settled.
-/

namespace HyperMoE.Lib.Dispatch

variable {κ π ρ : Type} {n : Nat} {p q : Pool κ π ρ}

open Pool

/-- nothing has been said yet on the promise, nor to its callbacks -/
def Unsettled (log : List (Event ρ)) (promise : Promise) (callbacks : List Nat) : Prop :=
  values promise log = [] ∧ ∀ m ∈ callbacks, answers m log = []

/-- one result has been given to all callbacks but `rest` -/
def Partly (log : List (Event ρ)) (promise : Promise) (callbacks : List Nat) (r : ρ)
    (rest : List Nat) : Prop :=
  values promise log = [] ∧ ∀ m ∈ callbacks, answers m log = if m ∈ rest then [] else [r]

/-- one result has been given to all callbacks and to the promise, once -/
def Settled (log : List (Event ρ)) (promise : Promise) (callbacks : List Nat) (r : ρ) : Prop :=
  values promise log = [r] ∧ ∀ m ∈ callbacks, answers m log = [r]

structure Recorded (p : Pool κ π ρ) : Prop where
  shared : ∀ m t callback, p.requests m = some (.shared t, callback) →
    m < p.nextRequest ∧ t < p.next ∧ (callback = true → m ∈ (p.tickets t).callbacks)
  joined : ∀ t < p.next, ∀ m ∈ (p.tickets t).callbacks, p.requests m = some (.shared t, true)
  nodup : ∀ t < p.next, (p.tickets t).callbacks.Nodup
  own : ∀ m m' callback, p.requests m = some (.own m', callback) → m' = m ∧ m < p.nextRequest
  call : ∀ m a, p.calls m = some a → ∃ callback, p.requests m = some (.own m, callback)
  begun : ∀ t, starts t p.log = if t < p.next ∧ (p.tickets t).started = true then 1 else 0
  unsettled : ∀ t < p.next, (p.tickets t).completed = false →
    Unsettled p.log (.shared t) (p.tickets t).callbacks
  delivering : ∀ w t r rest, p.workers w = .delivers t r rest → rest.Nodup ∧
    (∀ m ∈ rest, m ∈ (p.tickets t).callbacks) ∧
    Partly p.log (.shared t) (p.tickets t).callbacks r rest
  closed : ∀ t < p.next, (p.tickets t).completed = true → (∀ w, (p.workers w).task ≠ some t) →
    ∃ r, Settled p.log (.shared t) (p.tickets t).callbacks r
  silent : ∀ m promise, p.requests m = some (promise, false) → answers m p.log = []
  due : ∀ m, p.calls m = some .due → Unsettled p.log (.own m) [m]
  given : ∀ m r, p.calls m = some (.given r) → values (.own m) p.log = [] ∧
    (p.requests m = some (.own m, true) → answers m p.log = [r])
  ownClosed : ∀ m callback, p.requests m = some (.own m, callback) → p.calls m = none →
    ∃ r, values (.own m) p.log = [r] ∧ (callback = true → answers m p.log = [r])
  freshRequest : ∀ m, p.nextRequest ≤ m → Unsettled p.log (.own m) [m]
  freshTask : ∀ t, p.next ≤ t → values (.shared t) p.log = []

namespace Recorded

/-- a request has the number that it was given -/
theorem lt_nextRequest (h : Recorded p) {m : Nat} {promise : Promise} {callback : Bool}
    (hm : p.requests m = some (promise, callback)) : m < p.nextRequest := by
  cases promise with
  | shared t => exact (h.shared m t callback hm).1
  | own m' => exact (h.own m m' callback hm).2

theorem lt_of_callback (h : Recorded p) {t m : Nat} (ht : t < p.next)
    (hm : m ∈ (p.tickets t).callbacks) : m < p.nextRequest := h.lt_nextRequest (h.joined t ht m hm)

theorem enlist_requests {promise : Promise} {callback : Bool} {m : Nat} {x : Promise × Bool}
    (hm : (p.enlist promise callback).requests m = some x) :
    (m = p.nextRequest ∧ (promise, callback) = x) ∨
      (m ≠ p.nextRequest ∧ p.requests m = some x) := by
  replace hm : Function.update p.requests p.nextRequest (some (promise, callback)) m = _ := hm
  rw [Function.update_apply] at hm
  split at hm
  · next e => exact .inl ⟨e, Option.some.inj hm⟩
  · next e => exact .inr ⟨e, hm⟩

theorem enlist_of_lt {promise : Promise} {callback : Bool} {m : Nat} (hm : m < p.nextRequest) :
    (p.enlist promise callback).requests m = p.requests m :=
  Function.update_of_ne (Nat.ne_of_lt hm) ..

/-- a new request, on the promise of a task that has not been delivered -/
theorem enlist_shared {t : Nat} {callback : Bool} (h : Recorded p) (hl : Linked n p)
    (ht : t < p.next) (hc : (p.tickets t).completed = false) :
    Recorded ((p.enlist (.shared t) callback).setTicket t { p.tickets t with
      callbacks := if callback then (p.tickets t).callbacks ++ [p.nextRequest]
        else (p.tickets t).callbacks }) := by
  have hsame : ∀ {β : Type} (f : Ticket κ π → β) (_ : f { p.tickets t with
      callbacks := if callback then (p.tickets t).callbacks ++ [p.nextRequest]
        else (p.tickets t).callbacks } = f (p.tickets t)) t',
      f ((Function.update p.tickets t { p.tickets t with
        callbacks := if callback then (p.tickets t).callbacks ++ [p.nextRequest]
          else (p.tickets t).callbacks }) t') = f (p.tickets t') := setTicket_same
  have hst := hsame Ticket.started rfl
  have hco := hsame Ticket.completed rfl
  -- the callbacks of a task, with the new one if it joins that task
  have hself : ((Function.update p.tickets t { p.tickets t with
      callbacks := if callback then (p.tickets t).callbacks ++ [p.nextRequest]
        else (p.tickets t).callbacks }) t).callbacks =
      if callback then (p.tickets t).callbacks ++ [p.nextRequest]
        else (p.tickets t).callbacks := by rw [Function.update_self]
  have hne : ∀ t', t' ≠ t → ((Function.update p.tickets t { p.tickets t with
      callbacks := if callback then (p.tickets t).callbacks ++ [p.nextRequest]
        else (p.tickets t).callbacks }) t').callbacks = (p.tickets t').callbacks := by
    intro t' e
    rw [Function.update_of_ne e]
  have hmem : ∀ m t', m ∈ ((Function.update p.tickets t { p.tickets t with
      callbacks := if callback then (p.tickets t).callbacks ++ [p.nextRequest]
        else (p.tickets t).callbacks }) t').callbacks →
      m ∈ (p.tickets t').callbacks ∨ (t' = t ∧ m = p.nextRequest ∧ callback = true) := by
    intro m t' hm
    by_cases e : t' = t
    · subst e
      rw [hself] at hm
      split at hm
      · next hcb =>
        rcases List.mem_append.mp hm with hm | hm
        · exact .inl hm
        · exact .inr ⟨rfl, List.mem_singleton.mp hm, hcb⟩
      · exact .inl hm
    · rw [hne t' e] at hm
      exact .inl hm
  have hsub : ∀ m t', m ∈ (p.tickets t').callbacks → m ∈ ((Function.update p.tickets t
      { p.tickets t with
        callbacks := if callback then (p.tickets t).callbacks ++ [p.nextRequest]
          else (p.tickets t).callbacks }) t').callbacks := by
    intro m t' hm
    by_cases e : t' = t
    · subst e
      rw [hself]
      split
      · exact List.mem_append_left _ hm
      · exact hm
    · rw [hne t' e]
      exact hm
  have hfresh : p.nextRequest ∉ (p.tickets t).callbacks :=
    fun hm => Nat.lt_irrefl _ (h.lt_of_callback ht hm)
  -- the task is not the one of a delivery, nor a closed one
  have hbusy : ∀ t', (p.tickets t').completed = true → t' ≠ t := by
    rintro t' hc' rfl
    exact absurd (hc'.symm.trans hc) (by simp)
  refine { h with shared := ?_, joined := ?_, nodup := ?_, own := ?_, call := ?_, begun := ?_,
                  unsettled := ?_, delivering := ?_, closed := ?_, silent := ?_, given := ?_,
                  ownClosed := ?_, freshRequest := ?_ }
  · intro m t' cb hm
    rcases enlist_requests hm with ⟨rfl, e⟩ | ⟨-, hm⟩
    · obtain ⟨e₁, rfl⟩ := Prod.mk.inj e
      obtain rfl := Promise.shared.inj e₁
      refine ⟨Nat.lt_succ_self _, ht, fun hcb => ?_⟩
      show p.nextRequest ∈ ((Function.update p.tickets t _) t).callbacks
      rw [hself, if_pos hcb]
      exact List.mem_append_right _ List.mem_cons_self
    · obtain ⟨hm', ht', hcb⟩ := h.shared m t' cb hm
      exact ⟨Nat.lt_succ_of_lt hm', ht', fun e => hsub m t' (hcb e)⟩
  · intro t' ht' m hm
    rcases hmem m t' hm with hm | ⟨rfl, rfl, rfl⟩
    · exact (enlist_of_lt (h.lt_of_callback ht' hm)).trans (h.joined t' ht' m hm)
    · exact Function.update_self ..
  · intro t' ht'
    show ((Function.update p.tickets t _) t').callbacks.Nodup
    by_cases e : t' = t
    · subst e
      rw [hself]
      split
      · exact List.Nodup.append (h.nodup t' ht') (List.nodup_singleton _) (by simpa using hfresh)
      · exact h.nodup t' ht'
    · rw [hne t' e]
      exact h.nodup t' ht'
  · intro m m' cb hm
    rcases enlist_requests hm with ⟨-, e⟩ | ⟨-, hm⟩
    · cases (Prod.mk.inj e).1
    · exact ⟨(h.own m m' cb hm).1, Nat.lt_succ_of_lt (h.own m m' cb hm).2⟩
  · intro m a hm
    obtain ⟨cb, hr⟩ := h.call m a hm
    exact ⟨cb, (enlist_of_lt (h.own m m cb hr).2).trans hr⟩
  · intro t'
    show starts t' p.log = if t' < p.next ∧ ((Function.update p.tickets t _) t').started = true
      then 1 else 0
    rw [hst]
    exact h.begun t'
  · intro t' ht' hc'
    obtain ⟨hv, ha⟩ := h.unsettled t' ht' ((hco t').symm.trans hc')
    refine ⟨hv, fun m hm => ?_⟩
    rcases hmem m t' hm with hm | ⟨-, rfl, -⟩
    · exact ha m hm
    · exact (h.freshRequest _ (Nat.le_refl _)).2 _ List.mem_cons_self
  · intro w t' r rest hw
    obtain ⟨hn, hsub', hp⟩ := h.delivering w t' r rest hw
    have e := hbusy t' (hl.delivers w t' r rest hw).2
    refine ⟨hn, fun m hm => hsub m t' (hsub' m hm), ?_⟩
    show Partly p.log _ ((Function.update p.tickets t _) t').callbacks r rest
    rw [hne t' e]
    exact hp
  · intro t' ht' hc' hw
    have hc'' := (hco t').symm.trans hc'
    obtain ⟨r, hr⟩ := h.closed t' ht' hc'' hw
    refine ⟨r, ?_⟩
    show Settled p.log _ ((Function.update p.tickets t _) t').callbacks r
    rw [hne t' (hbusy t' hc'')]
    exact hr
  · intro m promise hm
    rcases enlist_requests hm with ⟨rfl, -⟩ | ⟨-, hm⟩
    · exact (h.freshRequest _ (Nat.le_refl _)).2 _ List.mem_cons_self
    · exact h.silent m promise hm
  · intro m r hm
    obtain ⟨cb, hr⟩ := h.call m _ hm
    refine ⟨(h.given m r hm).1, fun hm' => (h.given m r hm).2 ?_⟩
    exact (enlist_of_lt (p := p) (h.own m m cb hr).2).symm.trans hm'
  · intro m cb hm hcall
    rcases enlist_requests hm with ⟨-, e⟩ | ⟨-, hm⟩
    · cases (Prod.mk.inj e).1
    · exact h.ownClosed m cb hm hcall
  · intro m hm
    exact h.freshRequest m (Nat.le_of_succ_le hm)

/-- a new task, with the request that started it -/
theorem accept [DecidableEq κ] {queue : List (Entry π)} {rank : π} {k : κ} {callback : Bool}
    (h : Recorded p) (hl : Linked n p) :
    Recorded ((({ p with
      next := p.next + 1
      queue := queue
      pending := Function.update p.pending k (some p.next) }).enlist
        (.shared p.next) callback).setTicket p.next
          ⟨k, rank, 0, if callback then [p.nextRequest] else [], false, false⟩) := by
  have hold : ∀ t < p.next, (Function.update p.tickets p.next
      ⟨k, rank, 0, if callback then [p.nextRequest] else [], false, false⟩) t = p.tickets t :=
    fun t ht => Function.update_of_ne (Nat.ne_of_lt ht) ..
  have hnew : (Function.update p.tickets p.next
      ⟨k, rank, 0, if callback then [p.nextRequest] else [], false, false⟩) p.next =
      ⟨k, rank, 0, if callback then [p.nextRequest] else [], false, false⟩ := Function.update_self ..
  have hcall : ∀ m, m ∈ (if callback then [p.nextRequest] else []) →
      m = p.nextRequest ∧ callback = true := by
    intro m hm
    split at hm
    · next hcb => exact ⟨List.mem_singleton.mp hm, hcb⟩
    · cases hm
  refine { h with shared := ?_, joined := ?_, nodup := ?_, own := ?_, call := ?_, begun := ?_,
                  unsettled := ?_, delivering := ?_, closed := ?_, silent := ?_, given := ?_,
                  ownClosed := ?_, freshRequest := ?_, freshTask := ?_ }
  · intro m t cb hm
    rcases enlist_requests hm with ⟨rfl, e⟩ | ⟨-, hm⟩
    · obtain ⟨e₁, rfl⟩ := Prod.mk.inj e
      obtain rfl := Promise.shared.inj e₁
      refine ⟨Nat.lt_succ_self _, Nat.lt_succ_self _, fun hcb => ?_⟩
      show p.nextRequest ∈ ((Function.update p.tickets p.next _) p.next).callbacks
      rw [hnew, if_pos hcb]
      exact List.mem_cons_self
    · obtain ⟨hm', ht, hcb⟩ := h.shared m t cb hm
      refine ⟨Nat.lt_succ_of_lt hm', Nat.lt_succ_of_lt ht, fun e => ?_⟩
      show m ∈ ((Function.update p.tickets p.next _) t).callbacks
      rw [hold t ht]
      exact hcb e
  · intro t ht m hm
    replace hm : m ∈ ((Function.update p.tickets p.next _) t).callbacks := hm
    rcases Nat.lt_succ_iff_lt_or_eq.mp ht with ht | rfl
    · rw [hold t ht] at hm
      exact (enlist_of_lt (p := p) (h.lt_of_callback ht hm)).trans (h.joined t ht m hm)
    · rw [hnew] at hm
      obtain ⟨rfl, rfl⟩ := hcall m hm
      exact Function.update_self ..
  · intro t ht
    show ((Function.update p.tickets p.next _) t).callbacks.Nodup
    rcases Nat.lt_succ_iff_lt_or_eq.mp ht with ht | rfl
    · rw [hold t ht]
      exact h.nodup t ht
    · rw [hnew]
      show (if callback then [p.nextRequest] else []).Nodup
      split <;> simp
  · intro m m' cb hm
    rcases enlist_requests hm with ⟨-, e⟩ | ⟨-, hm⟩
    · cases (Prod.mk.inj e).1
    · exact ⟨(h.own m m' cb hm).1, Nat.lt_succ_of_lt (h.own m m' cb hm).2⟩
  · intro m a hm
    obtain ⟨cb, hr⟩ := h.call m a hm
    exact ⟨cb, (enlist_of_lt (p := p) (h.own m m cb hr).2).trans hr⟩
  · intro t
    show starts t p.log = if t < p.next + 1 ∧ ((Function.update p.tickets p.next _) t).started = true
      then 1 else 0
    rw [h.begun t]
    by_cases ht : t < p.next
    · rw [hold t ht]
      simp only [ht, Nat.lt_succ_of_lt ht, true_and]
    · rw [if_neg fun hc => ht hc.1]
      by_cases e : t = p.next
      · rw [e, hnew]
        simp
      · rw [if_neg fun hc => by omega]
  · intro t ht hc
    replace hc : ((Function.update p.tickets p.next _) t).completed = false := hc
    show Unsettled p.log (.shared t) ((Function.update p.tickets p.next _) t).callbacks
    rcases Nat.lt_succ_iff_lt_or_eq.mp ht with ht | rfl
    · rw [hold t ht] at hc ⊢
      exact h.unsettled t ht hc
    · rw [hnew]
      refine ⟨h.freshTask _ (Nat.le_refl _), fun m hm => ?_⟩
      rw [(hcall m hm).1]
      exact (h.freshRequest _ (Nat.le_refl _)).2 _ List.mem_cons_self
  · intro w t r rest hw
    have hd := h.delivering w t r rest hw
    rw [← hold t (hl.delivers w t r rest hw).1] at hd
    exact hd
  · intro t ht hc hw
    replace hc : ((Function.update p.tickets p.next _) t).completed = true := hc
    rcases Nat.lt_succ_iff_lt_or_eq.mp ht with ht | rfl
    · rw [hold t ht] at hc
      obtain ⟨r, hr⟩ := h.closed t ht hc hw
      rw [← hold t ht] at hr
      exact ⟨r, hr⟩
    · rw [hnew] at hc
      cases hc
  · intro m promise hm
    rcases enlist_requests hm with ⟨rfl, -⟩ | ⟨-, hm⟩
    · exact (h.freshRequest _ (Nat.le_refl _)).2 _ List.mem_cons_self
    · exact h.silent m promise hm
  · intro m r hm
    obtain ⟨cb, hr⟩ := h.call m _ hm
    refine ⟨(h.given m r hm).1, fun hm' => (h.given m r hm).2 ?_⟩
    exact (enlist_of_lt (p := p) (h.own m m cb hr).2).symm.trans hm'
  · intro m cb hm hc
    rcases enlist_requests hm with ⟨-, e⟩ | ⟨-, hm⟩
    · cases (Prod.mk.inj e).1
    · exact h.ownClosed m cb hm hc
  · intro m hm
    exact h.freshRequest m (Nat.le_of_succ_le hm)
  · intro t ht
    exact h.freshTask t (Nat.le_of_succ_le ht)

/-- a request that will be answered at once -/
theorem acceptOwn {callback : Bool} (h : Recorded p) :
    Recorded { p.enlist (.own p.nextRequest) callback with
      calls := Function.update p.calls p.nextRequest (some .due) } := by
  have hnew := h.freshRequest p.nextRequest (Nat.le_refl _)
  have hcalls : ∀ m a, Function.update p.calls p.nextRequest (some Answer.due) m = some a →
      (m = p.nextRequest ∧ a = .due) ∨ (m ≠ p.nextRequest ∧ p.calls m = some a) := by
    intro m a hm
    rw [Function.update_apply] at hm
    split at hm
    · next e => exact .inl ⟨e, (Option.some.inj hm).symm⟩
    · next e => exact .inr ⟨e, hm⟩
  refine { h with shared := ?_, joined := ?_, own := ?_, call := ?_, silent := ?_, due := ?_,
                  given := ?_, ownClosed := ?_, freshRequest := ?_ }
  · intro m t cb hm
    rcases enlist_requests hm with ⟨-, e⟩ | ⟨-, hm⟩
    · cases (Prod.mk.inj e).1
    · obtain ⟨hm', hrest⟩ := h.shared m t cb hm
      exact ⟨Nat.lt_succ_of_lt hm', hrest⟩
  · intro t ht m hm
    exact (enlist_of_lt (p := p) (h.lt_of_callback ht hm)).trans (h.joined t ht m hm)
  · intro m m' cb hm
    rcases enlist_requests hm with ⟨rfl, e⟩ | ⟨-, hm⟩
    · exact ⟨(Promise.own.inj (Prod.mk.inj e).1).symm, Nat.lt_succ_self _⟩
    · exact ⟨(h.own m m' cb hm).1, Nat.lt_succ_of_lt (h.own m m' cb hm).2⟩
  · intro m a hm
    rcases hcalls m a hm with ⟨rfl, -⟩ | ⟨-, hm⟩
    · exact ⟨callback, Function.update_self ..⟩
    · obtain ⟨cb, hr⟩ := h.call m a hm
      exact ⟨cb, (enlist_of_lt (p := p) (h.own m m cb hr).2).trans hr⟩
  · intro m promise hm
    rcases enlist_requests hm with ⟨rfl, -⟩ | ⟨-, hm⟩
    · exact hnew.2 _ List.mem_cons_self
    · exact h.silent m promise hm
  · intro m hm
    rcases hcalls m _ hm with ⟨rfl, -⟩ | ⟨-, hm⟩
    · exact hnew
    · exact h.due m hm
  · intro m r hm
    rcases hcalls m _ hm with ⟨-, e⟩ | ⟨-, hm⟩
    · cases e
    · obtain ⟨cb, hr⟩ := h.call m _ hm
      refine ⟨(h.given m r hm).1, fun hm' => (h.given m r hm).2 ?_⟩
      exact (enlist_of_lt (p := p) (h.own m m cb hr).2).symm.trans hm'
  · intro m cb hm hc
    rcases enlist_requests hm with ⟨rfl, -⟩ | ⟨e, hm⟩
    · replace hc : Function.update p.calls p.nextRequest (some Answer.due) p.nextRequest = none := hc
      rw [Function.update_self] at hc
      cases hc
    · replace hc : Function.update p.calls p.nextRequest (some Answer.due) m = none := hc
      rw [Function.update_of_ne e] at hc
      exact h.ownClosed m cb hm hc
  · intro m hm
    exact h.freshRequest m (Nat.le_of_succ_le hm)

/-- a change of a ticket that nobody is told about -/
theorem setTicket {t : Nat} {ticket : Ticket κ π} (h : Recorded p)
    (hcb : ticket.callbacks = (p.tickets t).callbacks)
    (hst : ticket.started = (p.tickets t).started)
    (hco : ticket.completed = (p.tickets t).completed) : Recorded (p.setTicket t ticket) := by
  have hcb' := setTicket_same (p := p) Ticket.callbacks hcb
  have hst' := setTicket_same (p := p) Ticket.started hst
  have hco' := setTicket_same (p := p) Ticket.completed hco
  refine { h with shared := ?_, joined := ?_, nodup := ?_, begun := ?_, unsettled := ?_,
                  delivering := ?_, closed := ?_ }
  · intro m t' cb hm
    rw [hcb']
    exact h.shared m t' cb hm
  · intro t' ht m hm
    exact h.joined t' ht m (hcb' t' ▸ hm)
  · intro t' ht
    rw [hcb']
    exact h.nodup t' ht
  · intro t'
    rw [hst']
    exact h.begun t'
  · intro t' ht hc
    rw [hcb']
    exact h.unsettled t' ht (hco' t' ▸ hc)
  · intro w t' r rest hw
    rw [hcb']
    exact h.delivering w t' r rest hw
  · intro t' ht hc hw
    rw [hcb']
    exact h.closed t' ht (hco' t' ▸ hc) hw

theorem exit {w : Nat} (h : Recorded p) (hi : p.workers w = .idle) :
    Recorded (p.setWorker w .exited) := by
  refine { h with delivering := ?_, closed := ?_ }
  · intro w' t r rest hw'
    rcases setWorker_cases hw' with ⟨-, e⟩ | ⟨-, hw'⟩
    · cases e
    · exact h.delivering w' t r rest hw'
  · intro t ht hc hw
    refine h.closed t ht hc fun w' e => ?_
    by_cases e' : w' = w
    · rw [e', hi] at e
      cases e
    · exact hw w' (by rw [setWorker_of_ne _ e']; exact e)

theorem claim {w : Nat} {after : List (Entry π)} {e : Entry π} (h : Recorded p)
    (hi : p.workers w = .idle) (hlt : e.task < p.next) (hlive : p.Live e) :
    Recorded (((({ p with queue := after }).setTicket e.task
      { p.tickets e.task with started := true }).setWorker w (.holds e.task)).note
        (.started e.task w)) := by
  have hself : (Function.update p.tickets e.task { p.tickets e.task with started := true }) e.task =
      { p.tickets e.task with started := true } := Function.update_self ..
  have hne : ∀ t, t ≠ e.task → (Function.update p.tickets e.task
      { p.tickets e.task with started := true }) t = p.tickets t :=
    fun t e => Function.update_of_ne e ..
  have hsame : ∀ {β : Type} (f : Ticket κ π → β) (_ : f { p.tickets e.task with
      started := true } = f (p.tickets e.task)) t,
      f ((Function.update p.tickets e.task { p.tickets e.task with started := true }) t) =
        f (p.tickets t) := setTicket_same
  have hcb := hsame Ticket.callbacks rfl
  have hco := hsame Ticket.completed rfl
  refine { h with shared := ?_, joined := ?_, nodup := ?_, begun := ?_, unsettled := ?_,
                  delivering := ?_, closed := ?_ }
  · intro m t cb hm
    obtain ⟨hm', ht, hcb'⟩ := h.shared m t cb hm
    exact ⟨hm', ht, fun e => (hcb t).symm ▸ hcb' e⟩
  · intro t ht m hm
    exact h.joined t ht m (hcb t ▸ hm)
  · intro t ht
    exact (hcb t).symm ▸ h.nodup t ht
  · intro t
    show (if e.task = t then 1 else 0) + starts t p.log =
      if t < p.next ∧ ((Function.update p.tickets e.task _) t).started = true then 1 else 0
    rw [h.begun t]
    by_cases e' : t = e.task
    · subst e'
      rw [hself, hlive.2.1]
      simp [hlt]
    · rw [hne t e', if_neg (Ne.symm e'), Nat.zero_add]
  · intro t ht hc
    exact (hcb t).symm ▸ h.unsettled t ht ((hco t).symm.trans hc)
  · intro w' t r rest hw'
    rcases setWorker_cases hw' with ⟨-, e⟩ | ⟨-, hw'⟩
    · cases e
    · exact (hcb t).symm ▸ h.delivering w' t r rest hw'
  · intro t ht hc hw
    refine (hcb t).symm ▸ h.closed t ht ((hco t).symm.trans hc) fun w' e' => ?_
    by_cases ew : w' = w
    · rw [ew, hi] at e'
      cases e'
    · refine hw w' ?_
      show (Function.update p.workers w _ w').task = some t
      rw [Function.update_of_ne ew]
      exact e'

theorem deliver [DecidableEq κ] {w t : Nat} {r : ρ} (h : Recorded p) (hl : Linked n p)
    (hw : p.workers w = .holds t) :
    Recorded ((({ p with pending := Function.update p.pending (p.tickets t).key none }).setTicket t
      { p.tickets t with completed := true }).setWorker w
        (.delivers t r (p.tickets t).callbacks)) := by
  obtain ⟨ht, hs, hc⟩ := hl.holds w t hw
  have hself : (Function.update p.tickets t { p.tickets t with completed := true }) t =
      { p.tickets t with completed := true } := Function.update_self ..
  have hne : ∀ t', t' ≠ t → (Function.update p.tickets t
      { p.tickets t with completed := true }) t' = p.tickets t' := fun t' e => Function.update_of_ne e ..
  have hsame : ∀ {β : Type} (f : Ticket κ π → β) (_ : f { p.tickets t with
      completed := true } = f (p.tickets t)) t',
      f ((Function.update p.tickets t { p.tickets t with completed := true }) t') =
        f (p.tickets t') := setTicket_same
  have hcb := hsame Ticket.callbacks rfl
  have hst := hsame Ticket.started rfl
  refine { h with shared := ?_, joined := ?_, nodup := ?_, begun := ?_, unsettled := ?_,
                  delivering := ?_, closed := ?_ }
  · intro m t' cb hm
    obtain ⟨hm', ht', hcb'⟩ := h.shared m t' cb hm
    exact ⟨hm', ht', fun e => (hcb t').symm ▸ hcb' e⟩
  · intro t' ht' m hm
    exact h.joined t' ht' m (hcb t' ▸ hm)
  · intro t' ht'
    exact (hcb t').symm ▸ h.nodup t' ht'
  · intro t'
    refine (h.begun t').trans ?_
    show (if t' < p.next ∧ (p.tickets t').started = true then 1 else 0) =
      if t' < p.next ∧ ((Function.update p.tickets t _) t').started = true then 1 else 0
    rw [hst]
  · intro t' ht' hc'
    replace hc' : ((Function.update p.tickets t _) t').completed = false := hc'
    by_cases e : t' = t
    · rw [e, hself] at hc'
      cases hc'
    · rw [hne t' e] at hc'
      exact (hcb t').symm ▸ h.unsettled t' ht' hc'
  · intro w' t' r' rest hw'
    refine (hcb t').symm ▸ ?_
    rcases setWorker_cases hw' with ⟨-, e⟩ | ⟨-, hw'⟩
    · obtain ⟨rfl, rfl, rfl⟩ := Stage.delivers.inj e
      obtain ⟨hv, ha⟩ := h.unsettled t ht hc
      refine ⟨h.nodup t ht, fun m hm => hm, hv, fun m hm => ?_⟩
      rw [if_pos hm]
      exact ha m hm
    · exact h.delivering w' t' r' rest hw'
  · intro t' ht' hc' hw'
    have e : t' ≠ t := by
      rintro rfl
      refine hw' w ?_
      show (Function.update p.workers w _ w).task = some t'
      rw [Function.update_self]
      rfl
    replace hc' : ((Function.update p.tickets t _) t').completed = true := hc'
    rw [hne t' e] at hc'
    refine (hcb t').symm ▸ h.closed t' ht' hc' fun w₁ e₁ => ?_
    by_cases ew : w₁ = w
    · rw [ew, hw] at e₁
      exact e (Option.some.inj e₁).symm
    · refine hw' w₁ ?_
      show (Function.update p.workers w _ w₁).task = some t'
      rw [Function.update_of_ne ew]
      exact e₁

/-- one callback is called: nothing else that was said changes -/
theorem answers_of_ne {m m' : Nat} {r : ρ} {log : List (Event ρ)} (h : m' ≠ m) :
    answers m' (.called m r :: log) = answers m' log := if_neg (Ne.symm h)

theorem values_of_ne {q q' : Promise} {r : ρ} {log : List (Event ρ)} (h : q' ≠ q) :
    values q' (.settled q r :: log) = values q' log := if_neg (Ne.symm h)

/-- the callbacks of two tasks are different requests -/
theorem callback_ne (h : Recorded p) {t t' m m' : Nat} (ht : t < p.next) (ht' : t' < p.next)
    (hm : m ∈ (p.tickets t).callbacks) (hm' : m' ∈ (p.tickets t').callbacks) (e : t' ≠ t) :
    m' ≠ m := by
  rintro rfl
  have h₁ := (h.joined t' ht' m' hm').symm.trans (h.joined t ht m' hm)
  exact e (Promise.shared.inj (Prod.mk.inj (Option.some.inj h₁)).1)

/-- the callback of a task is no request that is answered at once -/
theorem own_ne (h : Recorded p) {t m m' : Nat} {callback : Bool} (ht : t < p.next)
    (hm : m ∈ (p.tickets t).callbacks) (hm' : p.requests m' = some (.own m', callback)) :
    m' ≠ m := by
  rintro rfl
  have h₁ := hm'.symm.trans (h.joined t ht m' hm)
  cases (Prod.mk.inj (Option.some.inj h₁)).1

theorem call_worker {w t m : Nat} {r : ρ} {rest : List Nat} (h : Recorded p) (hl : Linked n p)
    (hw : p.workers w = .delivers t r (m :: rest)) :
    Recorded ((p.setWorker w (.delivers t r rest)).note (.called m r)) := by
  obtain ⟨ht, hc⟩ := hl.delivers w t r _ hw
  obtain ⟨hnd, hsub, hv, ha⟩ := h.delivering w t r _ hw
  have hm := hsub m List.mem_cons_self
  -- a request of another promise is not `m`
  have hown : ∀ m' cb, p.requests m' = some (.own m', cb) → answers m' (.called m r :: p.log) =
      answers m' p.log := fun m' cb hr => answers_of_ne (h.own_ne ht hm hr)
  have hother : ∀ t' < p.next, t' ≠ t → ∀ m' ∈ (p.tickets t').callbacks,
      answers m' (.called m r :: p.log) = answers m' p.log :=
    fun t' ht' e m' hm' => answers_of_ne (h.callback_ne ht ht' hm hm' e)
  refine { h with unsettled := ?_, delivering := ?_, closed := ?_, silent := ?_, due := ?_,
                  given := ?_, ownClosed := ?_, freshRequest := ?_ }
  · intro t' ht' hc'
    have e : t' ≠ t := by
      rintro rfl
      exact absurd (hc.symm.trans hc') (by simp)
    obtain ⟨hv', ha'⟩ := h.unsettled t' ht' hc'
    exact ⟨hv', fun m' hm' => (hother t' ht' e m' hm').trans (ha' m' hm')⟩
  · intro w' t' r' rest' hw'
    rcases setWorker_cases hw' with ⟨-, e⟩ | ⟨e, hw'⟩
    · obtain ⟨rfl, rfl, rfl⟩ := Stage.delivers.inj e
      refine ⟨(List.nodup_cons.mp hnd).2, fun m' hm' => hsub m' (List.mem_cons_of_mem _ hm'), hv,
        fun m' hm' => ?_⟩
      show answers m' (.called m r :: p.log) = _
      by_cases e' : m' = m
      · subst e'
        have hnil : answers m' p.log = [] := by
          rw [ha m' hm', if_pos List.mem_cons_self]
        show (if m' = m' then r :: answers m' p.log else _) = _
        rw [if_pos rfl, hnil, if_neg (List.nodup_cons.mp hnd).1]
      · rw [answers_of_ne e', ha m' hm']
        simp only [List.mem_cons, e', false_or]
    · have e' : t' ≠ t := hl.task_ne (congrArg Stage.task hw) (congrArg Stage.task hw') e
      obtain ⟨hnd', hsub', hv', ha'⟩ := h.delivering w' t' r' rest' hw'
      exact ⟨hnd', hsub', hv', fun m' hm' =>
        (hother t' (hl.delivers w' t' r' rest' hw').1 e' m' hm').trans (ha' m' hm')⟩
  · intro t' ht' hc' hw'
    have e : t' ≠ t := by
      rintro rfl
      refine hw' w ?_
      show (Function.update p.workers w _ w).task = some t'
      rw [Function.update_self]
      rfl
    obtain ⟨r', hv', ha'⟩ := h.closed t' ht' hc' fun w₁ e₁ => by
      by_cases ew : w₁ = w
      · rw [ew, hw] at e₁
        exact e (Option.some.inj e₁).symm
      · refine hw' w₁ ?_
        show (Function.update p.workers w _ w₁).task = some t'
        rw [Function.update_of_ne ew]
        exact e₁
    exact ⟨r', hv', fun m' hm' => (hother t' ht' e m' hm').trans (ha' m' hm')⟩
  · intro m' promise hm'
    refine (answers_of_ne ?_).trans (h.silent m' promise hm')
    rintro rfl
    have h₁ := hm'.symm.trans (h.joined t ht m' hm)
    cases (Prod.mk.inj (Option.some.inj h₁)).2
  · intro m' hm'
    obtain ⟨cb, hr⟩ := h.call m' _ hm'
    obtain ⟨hv', ha'⟩ := h.due m' hm'
    refine ⟨hv', fun x hx => ?_⟩
    rw [List.mem_singleton.mp hx]
    exact (hown m' cb hr).trans (ha' m' List.mem_cons_self)
  · intro m' r' hm'
    obtain ⟨hv', ha'⟩ := h.given m' r' hm'
    exact ⟨hv', fun hr => (hown m' true hr).trans (ha' hr)⟩
  · intro m' cb hr hcall
    obtain ⟨r', hv', ha'⟩ := h.ownClosed m' cb hr hcall
    exact ⟨r', hv', fun e => (hown m' cb hr).trans (ha' e)⟩
  · intro m' hm'
    obtain ⟨hv', ha'⟩ := h.freshRequest m' hm'
    refine ⟨hv', fun x hx => ?_⟩
    have hlt : m < p.nextRequest := h.lt_of_callback ht hm
    replace hm' : p.nextRequest ≤ m' := hm'
    rw [List.mem_singleton.mp hx]
    exact (answers_of_ne (by omega)).trans (ha' m' List.mem_cons_self)

theorem settle {w t : Nat} {r : ρ} (h : Recorded p) (hl : Linked n p)
    (hw : p.workers w = .delivers t r []) :
    Recorded ((p.setWorker w .idle).note (.settled (.shared t) r)) := by
  obtain ⟨ht, hc⟩ := hl.delivers w t r _ hw
  obtain ⟨-, -, hv, ha⟩ := h.delivering w t r _ hw
  have hother : ∀ t', t' ≠ t → values (.shared t') (.settled (.shared t) r :: p.log) =
      values (.shared t') p.log := fun t' e => values_of_ne fun e' => e (Promise.shared.inj e')
  refine { h with unsettled := ?_, delivering := ?_, closed := ?_, freshTask := ?_ }
  · intro t' ht' hc'
    have e : t' ≠ t := by
      rintro rfl
      exact absurd (hc.symm.trans hc') (by simp)
    exact ⟨(hother t' e).trans (h.unsettled t' ht' hc').1, (h.unsettled t' ht' hc').2⟩
  · intro w' t' r' rest' hw'
    rcases setWorker_cases hw' with ⟨-, e⟩ | ⟨e, hw'⟩
    · cases e
    · have e' : t' ≠ t := hl.task_ne (congrArg Stage.task hw) (congrArg Stage.task hw') e
      obtain ⟨hnd', hsub', hv', ha'⟩ := h.delivering w' t' r' rest' hw'
      exact ⟨hnd', hsub', (hother t' e').trans hv', ha'⟩
  · intro t' ht' hc' hw'
    by_cases e : t' = t
    · subst e
      refine ⟨r, ?_, fun m hm => ?_⟩
      · show (if Promise.shared t' = Promise.shared t' then r :: values (.shared t') p.log else _) = _
        rw [if_pos rfl, hv]
      · exact (ha m hm).trans (if_neg (List.not_mem_nil))
    · obtain ⟨r', hv', ha'⟩ := h.closed t' ht' hc' fun w₁ e₁ => by
        by_cases ew : w₁ = w
        · rw [ew, hw] at e₁
          exact e (Option.some.inj e₁).symm
        · refine hw' w₁ ?_
          show (Function.update p.workers w _ w₁).task = some t'
          rw [Function.update_of_ne ew]
          exact e₁
      exact ⟨r', (hother t' e).trans hv', ha'⟩
  · intro t' ht'
    replace ht' : p.next ≤ t' := ht'
    exact (hother t' (by omega)).trans (h.freshTask t' ht')

/-- the calls after one of them has changed -/
theorem calls_cases {m m' : Nat} {x y : Option (Answer ρ)}
    (h : Function.update p.calls m x m' = y) : (m' = m ∧ x = y) ∨ (m' ≠ m ∧ p.calls m' = y) := by
  rw [Function.update_apply] at h
  split at h
  · next e => exact .inl ⟨e, h⟩
  · next e => exact .inr ⟨e, h⟩

theorem answer_silent {m : Nat} {r : ρ} (h : Recorded p) (hc : p.calls m = some .due)
    (hr : p.requests m = some (.own m, false)) :
    Recorded { p with calls := Function.update p.calls m (some (.given r)) } := by
  refine { h with call := ?_, due := ?_, given := ?_, ownClosed := ?_ }
  · intro m' a hm'
    rcases calls_cases hm' with ⟨rfl, -⟩ | ⟨-, hm'⟩
    · exact ⟨false, hr⟩
    · exact h.call m' a hm'
  · intro m' hm'
    rcases calls_cases hm' with ⟨-, e⟩ | ⟨-, hm'⟩
    · cases e
    · exact h.due m' hm'
  · intro m' r' hm'
    rcases calls_cases hm' with ⟨rfl, -⟩ | ⟨-, hm'⟩
    · refine ⟨(h.due m' hc).1, fun hr' => ?_⟩
      have h₁ := hr.symm.trans hr'
      cases (Prod.mk.inj (Option.some.inj h₁)).2
    · exact h.given m' r' hm'
  · intro m' cb hr' hm'
    rcases calls_cases hm' with ⟨-, e⟩ | ⟨-, hm'⟩
    · cases e
    · exact h.ownClosed m' cb hr' hm'

theorem answer_called {m : Nat} {r : ρ} (h : Recorded p) (hl : Linked n p)
    (hc : p.calls m = some .due) (hr : p.requests m = some (.own m, true)) :
    Recorded (({ p with calls := Function.update p.calls m (some (.given r)) }).note
      (.called m r)) := by
  obtain ⟨hv, ha⟩ := h.due m hc
  have hshared : ∀ t < p.next, ∀ m' ∈ (p.tickets t).callbacks,
      answers m' (.called m r :: p.log) = answers m' p.log :=
    fun t ht m' hm' => answers_of_ne (h.own_ne ht hm' hr).symm
  refine { h with call := ?_, unsettled := ?_, delivering := ?_, closed := ?_, silent := ?_,
                  due := ?_, given := ?_, ownClosed := ?_, freshRequest := ?_ }
  · intro m' a hm'
    rcases calls_cases hm' with ⟨rfl, -⟩ | ⟨-, hm'⟩
    · exact ⟨true, hr⟩
    · exact h.call m' a hm'
  · intro t ht hco
    obtain ⟨hv', ha'⟩ := h.unsettled t ht hco
    exact ⟨hv', fun m' hm' => (hshared t ht m' hm').trans (ha' m' hm')⟩
  · intro w t r' rest hw
    obtain ⟨hnd', hsub', hv', ha'⟩ := h.delivering w t r' rest hw
    exact ⟨hnd', hsub', hv', fun m' hm' =>
      (hshared t (hl.delivers w t r' rest hw).1 m' hm').trans (ha' m' hm')⟩
  · intro t ht hco hw
    obtain ⟨r', hv', ha'⟩ := h.closed t ht hco hw
    exact ⟨r', hv', fun m' hm' => (hshared t ht m' hm').trans (ha' m' hm')⟩
  · intro m' promise hm'
    refine (answers_of_ne ?_).trans (h.silent m' promise hm')
    rintro rfl
    have h₁ := hm'.symm.trans hr
    cases (Prod.mk.inj (Option.some.inj h₁)).2
  · intro m' hm'
    rcases calls_cases hm' with ⟨-, e⟩ | ⟨e, hm'⟩
    · cases e
    · obtain ⟨hv', ha'⟩ := h.due m' hm'
      refine ⟨hv', fun x hx => ?_⟩
      rw [List.mem_singleton.mp hx]
      exact (answers_of_ne e).trans (ha' m' List.mem_cons_self)
  · intro m' r' hm'
    rcases calls_cases hm' with ⟨rfl, e⟩ | ⟨e, hm'⟩
    · obtain rfl := Answer.given.inj (Option.some.inj e)
      refine ⟨hv, fun _ => ?_⟩
      show (if m' = m' then r :: answers m' p.log else _) = _
      rw [if_pos rfl, ha m' List.mem_cons_self]
    · obtain ⟨hv', ha'⟩ := h.given m' r' hm'
      exact ⟨hv', fun hr' => (answers_of_ne e).trans (ha' hr')⟩
  · intro m' cb hr' hm'
    rcases calls_cases hm' with ⟨-, e⟩ | ⟨e, hm'⟩
    · cases e
    · obtain ⟨r', hv', ha'⟩ := h.ownClosed m' cb hr' hm'
      exact ⟨r', hv', fun hcb => (answers_of_ne e).trans (ha' hcb)⟩
  · intro m' hm'
    obtain ⟨hv', ha'⟩ := h.freshRequest m' hm'
    refine ⟨hv', fun x hx => ?_⟩
    have hlt : m < p.nextRequest := h.lt_nextRequest hr
    replace hm' : p.nextRequest ≤ m' := hm'
    rw [List.mem_singleton.mp hx]
    exact (answers_of_ne (by omega)).trans (ha' m' List.mem_cons_self)

theorem settleOwn {m : Nat} {r : ρ} (h : Recorded p) (hc : p.calls m = some (.given r)) :
    Recorded (({ p with calls := Function.update p.calls m none }).note (.settled (.own m) r)) := by
  obtain ⟨hv, ha⟩ := h.given m r hc
  have hother : ∀ m', m' ≠ m → values (.own m') (.settled (.own m) r :: p.log) =
      values (.own m') p.log := fun m' e => values_of_ne fun e' => e (Promise.own.inj e')
  have hlt : m < p.nextRequest := by
    obtain ⟨cb, hr⟩ := h.call m _ hc
    exact h.lt_nextRequest hr
  refine { h with call := ?_, due := ?_, given := ?_, ownClosed := ?_, freshRequest := ?_ }
  · intro m' a hm'
    rcases calls_cases hm' with ⟨-, e⟩ | ⟨-, hm'⟩
    · cases e
    · exact h.call m' a hm'
  · intro m' hm'
    rcases calls_cases hm' with ⟨-, e⟩ | ⟨e, hm'⟩
    · cases e
    · exact ⟨(hother m' e).trans (h.due m' hm').1, (h.due m' hm').2⟩
  · intro m' r' hm'
    rcases calls_cases hm' with ⟨-, e⟩ | ⟨e, hm'⟩
    · cases e
    · exact ⟨(hother m' e).trans (h.given m' r' hm').1, (h.given m' r' hm').2⟩
  · intro m' cb hr hm'
    rcases calls_cases hm' with ⟨rfl, -⟩ | ⟨e, hm'⟩
    · refine ⟨r, ?_, fun hcb => ha (hcb ▸ hr)⟩
      show (if Promise.own m' = Promise.own m' then r :: values (.own m') p.log else _) = _
      rw [if_pos rfl, hv]
    · obtain ⟨r', hv', ha'⟩ := h.ownClosed m' cb hr hm'
      exact ⟨r', (hother m' e).trans hv', ha'⟩
  · intro m' hm'
    replace hm' : p.nextRequest ≤ m' := hm'
    exact ⟨(hother m' (by omega)).trans (h.freshRequest m' hm').1, (h.freshRequest m' hm').2⟩

end Recorded

theorem recorded_new (tickets : Nat → Ticket κ π) : Recorded (.new tickets : Pool κ π ρ) where
  shared m t callback h := by cases h
  joined t ht := absurd ht (Nat.not_lt_zero t)
  nodup t ht := absurd ht (Nat.not_lt_zero t)
  own m m' callback h := by cases h
  call m a h := by cases h
  begun t := (if_neg fun h => Nat.not_lt_zero t h.1).symm
  unsettled t ht := absurd ht (Nat.not_lt_zero t)
  delivering w t r rest hw := by cases hw
  closed t ht := absurd ht (Nat.not_lt_zero t)
  silent m promise h := by cases h
  due m h := by cases h
  given m r h := by cases h
  ownClosed m callback h := by cases h
  freshRequest m hm := ⟨rfl, fun _ _ => rfl⟩
  freshTask t ht := rfl

theorem Step.recorded [DecidableEq κ] (hs : Step n p q) (hl : Linked n p) (h : Recorded p) :
    Recorded q := by
  cases hs with
  | accept hk hs hq => exact h.accept hl
  | join hk =>
    obtain ⟨ht, -, hc⟩ := hl.pendingKey _ _ hk
    exact h.enlist_shared hl ht hc
  | @requeue k t rank queue hk hs ht hq =>
    have h' : Recorded { p with queue := queue } := { h with }
    exact h'.setTicket rfl rfl rfl
  | acceptOwn => exact h.acceptOwn
  | stop => exact { h with }
  | @claim w before after e hw hi hq hstale hlive =>
    have hlt : e.task < p.next := (hl.entries e (by rw [hq]; simp)).1
    exact h.claim hi hlt hlive
  | drain hstale => exact { h with }
  | exit hw hi hs hq => exact h.exit hi
  | deliver hw => exact h.deliver hl hw
  | call hw => exact h.call_worker hl hw
  | settle hw => exact h.settle hl hw
  | @answer m r callback hc hr =>
    cases callback with
    | true => exact h.answer_called hl hc hr
    | false => exact h.answer_silent hc hr
  | settleOwn hc => exact h.settleOwn hc

/-! ## at rest -/

/-- an empty queue and no worker at work: every task has been settled -/
theorem settled_of_rest (hl : Linked n p) (h : Recorded p) (hq : p.queue = [])
    (hw : ∀ w, (p.workers w).task = none) {t : Nat} (ht : t < p.next) :
    (p.tickets t).completed = true ∧
      ∃ r, Settled p.log (.shared t) (p.tickets t).callbacks r := by
  have hs : (p.tickets t).started = true := by
    cases hs : (p.tickets t).started with
    | true => rfl
    | false =>
      have hone := hl.queued t ht hs
      rw [hq] at hone
      cases hone
  have hc : (p.tickets t).completed = true := by
    cases hc : (p.tickets t).completed with
    | true => rfl
    | false =>
      obtain ⟨w, -, hheld⟩ := hl.held t ht hs hc
      exact absurd (hw w) (by rw [hheld]; simp [Stage.task])
  exact ⟨hc, h.closed t ht hc fun w => by rw [hw w]; simp⟩

end HyperMoE.Lib.Dispatch
