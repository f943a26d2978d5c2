import HyperMoE.Profiling.GpuEventQueue

/-!
# Lifetimes of events and owners

* `World.holders`           the scopes and the pending records: who holds events and owners;
* `Holds`                   what is held, destroyed and released makes up what was created and begun;
* `Holds.keep`, `Holds.acquire`, `Holds.drop`   the three things that a call does to a holder;
* `remaining`               what `collect` leaves, given the answers to its queries;
* `Lifetimes`, `Cleared`    what holds of any state, and what one `collect` leaves;
* `Valid`, `Sampled`        every completed operation has a valid time;
* `run_lifetimes`           both of them over any run.
-/

namespace HyperMoE.Profiling

open Lib Lib.Fallible

/-! ## who holds what -/

def World.holders (w : World) : List Record := w.open_.map Scope.toRecord ++ w.pending

structure Holds (w : World) : Prop where
  events : (w.holders.flatMap Record.events ++ w.destroyed).Perm (List.range w.device.created)
  begun : (w.holders.map Record.begun ++ w.released.map fun r => r.record.begun).Perm w.begun
  ids : w.begun.map Begun.id = List.range w.begun.length
  safe : ∀ r ∈ w.released, r.device.ready r.record.stop = true ∨ r.device.Drained r.record.stream
  timedOnce : (w.timed.map Prod.fst).Nodup
  timedReleased : ∀ t ∈ w.timed, t.1 ∈ w.released.map fun r => r.record.id
  keys : ∀ id scope, w.scopes.lookup id = some scope → scope.id = id ∧ id < w.begun.length
  closed : w.alive = false → w.holders = []

theorem holds_start (profiler : Bool) : Holds (start profiler) where
  events := List.Perm.refl _
  begun := List.Perm.refl _
  ids := rfl
  safe _ h := absurd h List.not_mem_nil
  timedOnce := List.nodup_nil
  timedReleased _ h := absurd h List.not_mem_nil
  keys _ _ h := nomatch h
  closed _ := rfl

section
variable {w w' : World} {r : Record}

/-- what a call does not touch -/
structure Untouched (w w' : World) : Prop where
  begun : w'.begun = w.begun
  created : w'.device.created = w.device.created
  keys : ∀ id scope, w'.scopes.lookup id = some scope → scope.id = id ∧ id < w.begun.length

/-- the holders stay, perhaps in other places -/
theorem Holds.keep (h : Holds w) (hw : Untouched w w') (hholders : w'.holders.Perm w.holders)
    (hdestroyed : w'.destroyed = w.destroyed) (hreleased : w'.released = w.released)
    (htimed : w'.timed = w.timed) (halive : w'.alive = w.alive) : Holds w' where
  events := by
    rw [hdestroyed, hw.created]
    exact ((hholders.flatMap_right _).append_right _).trans h.events
  begun := by
    rw [hreleased, hw.begun]
    exact ((hholders.map _).append_right _).trans h.begun
  ids := by
    rw [hw.begun]
    exact h.ids
  safe := hreleased ▸ h.safe
  timedOnce := htimed ▸ h.timedOnce
  timedReleased := by
    rw [htimed, hreleased]
    exact h.timedReleased
  keys := by
    rw [hw.begun]
    exact hw.keys
  closed hc := (h.closed (halive ▸ hc) ▸ hholders).eq_nil

/-- the operations that are held or released are different -/
theorem Holds.nodup_ids (h : Holds w) :
    (w.holders.map Record.id ++ w.released.map fun r => r.record.id).Nodup := by
  have hids := h.begun.map Begun.id
  rw [h.ids, List.map_append, List.map_map, List.map_map] at hids
  exact hids.nodup_iff.mpr List.nodup_range

theorem Holds.id_not_released (h : Holds w) {l : List Record} (hholders : w.holders.Perm (r :: l)) :
    r.id ∉ w.released.map fun r => r.record.id := by
  have hmem : r.id ∈ w.holders.map Record.id :=
    List.mem_map_of_mem (hholders.mem_iff.mpr List.mem_cons_self)
  exact List.disjoint_of_nodup_append h.nodup_ids hmem

/-- a holder is no longer one: its events are destroyed and its owners released -/
theorem Holds.drop (h : Holds w) (hw : Untouched w w') (hholders : w.holders.Perm (r :: w'.holders))
    (hdestroyed : w'.destroyed = w.destroyed ++ r.events) {d : Device}
    (hreleased : w'.released = w.released ++ [⟨r, d⟩])
    (hd : d.ready r.stop = true ∨ d.Drained r.stream)
    (htimed : w'.timed = w.timed ∨ ∃ x, w'.timed = w.timed ++ [(r.id, x)])
    (halive : w'.alive = w.alive) : Holds w' where
  events := by
    rw [hdestroyed, hw.created]
    refine List.Perm.trans ?_ (((hholders.symm.flatMap_right _).append_right _).trans h.events)
    refine List.perm_iff_count.mpr fun e => ?_
    rw [List.flatMap_cons]
    simp only [List.count_append]
    omega
  begun := by
    rw [hreleased, hw.begun]
    refine List.Perm.trans ?_ (((hholders.symm.map _).append_right _).trans h.begun)
    refine List.perm_iff_count.mpr fun b => ?_
    rw [List.map_append, List.map_singleton, List.map_cons]
    simp only [List.count_append, List.count_cons, List.count_nil]
    omega
  ids := by
    rw [hw.begun]
    exact h.ids
  safe := by
    rw [hreleased]
    intro x hx
    rcases List.mem_append.mp hx with hx | hx
    · exact h.safe x hx
    · rw [List.mem_singleton.mp hx]
      exact hd
  timedOnce := by
    rcases htimed with htimed | ⟨x, htimed⟩
    · exact htimed ▸ h.timedOnce
    · rw [htimed, List.map_append, List.map_singleton]
      refine h.timedOnce.append (List.nodup_singleton _) ?_
      rw [List.disjoint_singleton]
      intro ht
      obtain ⟨t, ht, hid⟩ := List.mem_map.mp ht
      have hreleasedId := h.timedReleased t ht
      rw [hid] at hreleasedId
      exact h.id_not_released hholders hreleasedId
  timedReleased := by
    intro t ht
    rw [hreleased, List.map_append, List.mem_append]
    rcases htimed with htimed | ⟨x, htimed⟩
    · exact Or.inl (h.timedReleased t (htimed ▸ ht))
    · rw [htimed, List.mem_append, List.mem_singleton] at ht
      rcases ht with ht | rfl
      · exact Or.inl (h.timedReleased t ht)
      · exact Or.inr List.mem_cons_self
  keys := by
    rw [hw.begun]
    exact hw.keys
  closed hc := by
    rw [h.closed (halive ▸ hc)] at hholders
    exact absurd hholders.length_eq (by simp)

/-- a new holder -/
theorem Holds.acquire (h : Holds w) (hholders : w'.holders.Perm (r :: w.holders))
    (hbegun : w'.begun = w.begun ++ [r.begun]) (hid : r.id = w.begun.length)
    (hcreated : (r.events ++ List.range w.device.created).Perm (List.range w'.device.created))
    (hkeys : ∀ id scope, w'.scopes.lookup id = some scope → scope.id = id ∧ id < w'.begun.length)
    (hdestroyed : w'.destroyed = w.destroyed) (hreleased : w'.released = w.released)
    (htimed : w'.timed = w.timed) (halive : w'.alive = true) : Holds w' where
  events := by
    rw [hdestroyed]
    refine List.Perm.trans ?_ hcreated
    refine List.Perm.trans ((hholders.flatMap_right _).append_right _) ?_
    rw [List.flatMap_cons, List.append_assoc]
    exact h.events.append_left _
  begun := by
    rw [hreleased, hbegun]
    refine List.Perm.trans ((hholders.map _).append_right _) ?_
    rw [List.map_cons, List.cons_append]
    exact (h.begun.cons _).trans (List.perm_append_singleton _ _).symm
  ids := by
    rw [hbegun, List.map_append, h.ids, List.length_append, List.length_singleton, List.range_succ]
    show _ ++ [r.id] = _
    rw [hid]
  safe := hreleased ▸ h.safe
  timedOnce := htimed ▸ h.timedOnce
  timedReleased := by
    rw [htimed, hreleased]
    exact h.timedReleased
  keys := hkeys
  closed hc := absurd (halive.symm.trans hc) (by simp)

end

/-! ## collect -/

/-- the time is finite and not negative, and so is the duration that it is cast to -/
def Taken (env : Environment) : Option ℚ → Prop
  | none => False
  | some milliseconds => 0 ≤ milliseconds ∧ 0 ≤ nanoseconds env milliseconds

/-- the record whose sample makes `collect` throw -/
def Bad (profiler : Bool) (env : Environment) (r : Record) : Prop :=
  profiler = true ∧ ¬ Taken env (env.elapsedMs r.start r.stop)

instance (env : Environment) (x : Option ℚ) : Decidable (Taken env x) :=
  match x with
  | none => inferInstanceAs (Decidable False)
  | some m => inferInstanceAs (Decidable (0 ≤ m ∧ 0 ≤ nanoseconds env m))

instance (profiler : Bool) (env : Environment) (r : Record) : Decidable (Bad profiler env r) :=
  inferInstanceAs (Decidable (_ ∧ _))

theorem sample_cases (env : Environment) (it : Record) (w : World) :
    (Bad w.profiler env it ∧ ∃ e, (sample env it).exec w = (.error e, w)) ∨
    (¬ Bad w.profiler env it ∧ ∃ timed,
      (timed = w.timed ∨ ∃ x, timed = w.timed ++ [(it.id, x)]) ∧
      (sample env it).exec w = (.ok (), { w with timed := timed })) := by
  have hread : (sample env it).exec w = Fallible.exec (if w.profiler then
      match env.elapsedMs it.start it.stop with
      | none => throw (.runtimeError "GPU event elapsed time is invalid")
      | some milliseconds => do
        throwIf (milliseconds < 0) (.runtimeError "GPU event elapsed time is invalid")
        recordGpuTime it.id it.operation (nanoseconds env milliseconds)
    else pure ()) w := rfl
  rw [hread]
  by_cases hprofiler : w.profiler = true
  · rw [if_pos hprofiler]
    unfold Bad
    cases env.elapsedMs it.start it.stop with
    | none => exact Or.inl ⟨⟨hprofiler, not_false⟩, _, rfl⟩
    | some milliseconds =>
      dsimp only
      rw [exec_throwIf_bind]
      by_cases hneg : milliseconds < 0
      · rw [if_pos hneg]
        exact Or.inl ⟨⟨hprofiler, fun h => absurd h.1 (not_le.mpr hneg)⟩, _, rfl⟩
      · rw [if_neg hneg]
        unfold recordGpuTime
        rw [exec_throwIf_bind]
        by_cases hcast : nanoseconds env milliseconds < 0
        · rw [if_pos hcast]
          exact Or.inl ⟨⟨hprofiler, fun h => absurd h.2 (Int64.not_le.mpr hcast)⟩, _, rfl⟩
        · rw [if_neg hcast]
          have htaken : Taken env (some milliseconds) :=
            ⟨not_lt.mp hneg, Int64.not_lt.mp hcast⟩
          exact Or.inr ⟨fun h => h.2 htaken, _, Or.inr ⟨_, rfl⟩, rfl⟩
  · rw [if_neg hprofiler]
    exact Or.inr ⟨fun h => hprofiler h.1, w.timed, Or.inl rfl, rfl⟩

/-- what every query answers, as if the loop reached it -/
def answers (env : Environment) : Nat → Device → List Record → List (Record × Bool)
  | _, _, [] => []
  | i, d, r :: rest =>
    (r, (d.advance (env.advance i)).ready r.stop) ::
      answers env (i + 1) (d.advance (env.advance i)) rest

/-- the records that stay: those not ready, and from the first bad one on all -/
def remaining (profiler : Bool) (env : Environment) : List (Record × Bool) → List Record
  | [] => []
  | (r, false) :: rest => r :: remaining profiler env rest
  | (r, true) :: rest =>
    if Bad profiler env r then r :: rest.map Prod.fst else remaining profiler env rest

theorem map_answers (env : Environment) (i : Nat) (d : Device) (l : List Record) :
    (answers env i d l).map Prod.fst = l := by
  induction l generalizing i d with
  | nil => rfl
  | cons r l ih => exact congrArg (r :: ·) (ih _ _)

theorem collectLoop_spec (env : Environment) (todo : List Record) (i : Nat) (kept : List Record)
    {w : World} (h : Holds w) (hpending : w.pending = kept ++ todo) :
    wp (collectLoop env i kept todo) (fun _ w' => Holds w' ∧
      w'.pending = kept ++ remaining w.profiler env (answers env i w.device todo)) w := by
  induction todo generalizing i kept w with
  | nil => exact ⟨h, hpending⟩
  | cons it rest ih =>
    let polled : World := { w with device := w.device.advance (env.advance i) }
    have hpolled : Holds polled := h.keep ⟨rfl, rfl, h.keys⟩ (List.Perm.refl _) rfl rfl rfl rfl
    unfold collectLoop ready onDevice
    simp only [wp_bind, wp_update, wp_read, wp_pure]
    show wp (if polled.device.ready it.stop = true then _ else _) _ polled
    unfold answers
    by_cases hready : polled.device.ready it.stop = true
    · have hholders : polled.holders.Perm
          (it :: (w.open_.map Scope.toRecord ++ (kept ++ rest))) := by
        show (w.open_.map Scope.toRecord ++ w.pending).Perm _
        rw [hpending, ← List.append_assoc, ← List.append_assoc]
        exact List.perm_middle
      have hanswer : (w.device.advance (env.advance i)).ready it.stop = true := hready
      rw [if_pos hready, hanswer]
      unfold remaining
      rcases sample_cases env it polled with ⟨hbad, e, hsample⟩ | ⟨hgood, timed, htimed, hsample⟩
      · rw [wp_bind, wp_def, hsample, if_pos hbad, map_answers]
        exact ⟨hpolled, hpending⟩
      · rw [wp_bind, wp_def, hsample, if_neg hgood]
        unfold destroy release
        simp only [wp_bind, wp_update]
        refine ih (i + 1) kept (hpolled.drop ⟨rfl, rfl, h.keys⟩ hholders ?_ rfl (Or.inl hready)
          htimed rfl) rfl
        exact List.append_assoc _ _ _
    · have hanswer : (w.device.advance (env.advance i)).ready it.stop = false :=
        Bool.eq_false_iff.mpr hready
      rw [if_neg hready, hanswer]
      unfold remaining
      have := ih (i + 1) (kept ++ [it]) hpolled (hpending.trans (by simp))
      simpa using this

theorem mem_of_mem_remaining {profiler : Bool} {env : Environment} {l : List (Record × Bool)}
    {r : Record} (h : r ∈ remaining profiler env l) : r ∈ l.map Prod.fst := by
  induction l with
  | nil => exact h
  | cons a l ih =>
    obtain ⟨r', answer⟩ := a
    rw [List.map_cons, List.mem_cons]
    cases answer with
    | false => exact (List.mem_cons.mp h).imp_right ih
    | true =>
      unfold remaining at h
      split at h
      · exact List.mem_cons.mp h
      · exact Or.inr (ih h)

/-- a record that answered stays where one of them is bad, and only there -/
theorem remaining_unanswered_iff {profiler : Bool} {env : Environment}
    {l : List (Record × Bool)} (hnodup : (l.map Prod.fst).Nodup) :
    (∀ r ∈ remaining profiler env l, (r, true) ∉ l) ↔
      ∀ a ∈ l, a.2 = true → ¬ Bad profiler env a.1 := by
  induction l with
  | nil => simp [remaining]
  | cons a l ih =>
    obtain ⟨r, answer⟩ := a
    obtain ⟨hnot, hl⟩ := List.nodup_cons.mp hnodup
    have hout : (r, true) ∉ l := fun hm => hnot (List.mem_map.mpr ⟨_, hm, rfl⟩)
    cases answer with
    | false =>
      have hrest : ∀ r' : Record, (r', true) ∈ (r, false) :: l ↔ (r', true) ∈ l := by simp
      unfold remaining
      simp only [hrest, List.forall_mem_cons, ih hl]
      simp [hout]
    | true =>
      by_cases hbad : Bad profiler env r
      · unfold remaining
        rw [if_pos hbad]
        exact iff_of_false (fun h => h r List.mem_cons_self List.mem_cons_self)
          fun h => h _ List.mem_cons_self rfl hbad
      · have hrest : ∀ r' ∈ remaining profiler env l,
            ((r', true) ∈ (r, true) :: l ↔ (r', true) ∈ l) := by
          intro r' hr'
          have hne : r' ≠ r := fun e => hnot (e ▸ mem_of_mem_remaining hr')
          simp [hne]
        unfold remaining
        rw [if_neg hbad, List.forall_mem_cons]
        constructor
        · intro h
          exact ⟨fun _ => hbad, (ih hl).mp fun r' hr' => (hrest r' hr').not.mp (h r' hr')⟩
        · rintro ⟨-, h⟩ r' hr'
          exact (hrest r' hr').not.mpr ((ih hl).mpr h r' hr')

/-! what was ready stays ready -/

theorem ready_advance {d : Device} {target : StreamHandle → Nat} {event : EventHandle}
    (h : d.ready event = true) : (d.advance target).ready event = true := by
  unfold Device.ready at h ⊢
  dsimp only [Device.advance]
  cases hposition : event.bind d.recorded with
  | none =>
    rw [hposition] at h
    cases h
  | some position =>
    rw [hposition] at h
    exact decide_eq_true (Nat.le_trans (of_decide_eq_true h) (Nat.le_max_left _ _))

theorem answers_of_ready {env : Environment} {l : List Record} {r : Record} (hr : r ∈ l) {i : Nat}
    {d : Device} (h : d.ready r.stop = true) : (r, true) ∈ answers env i d l := by
  induction l generalizing i d with
  | nil => cases hr
  | cons a l ih =>
    have hnext : (d.advance (env.advance i)).ready r.stop = true := ready_advance h
    rcases List.mem_cons.mp hr with rfl | hr
    · unfold answers
      rw [hnext]
      exact List.mem_cons_self
    · exact List.mem_cons_of_mem _ (ih hr hnext)

/-- the queue, after `collect` left `w'` of `w`, keeps no record whose end event was ready before or
answered so -/
def Cleared (env : Environment) (w w' : World) : Prop :=
  ∀ r ∈ w'.pending, w.device.ready r.stop = false ∧ (r, true) ∉ answers env 0 w.device w.pending

/-- no operation found complete makes `collect` throw -/
def Unrefused (env : Environment) (w : World) : Prop :=
  ∀ a ∈ answers env 0 w.device w.pending, a.2 = true → ¬ Bad w.profiler env a.1

theorem holds_collect {w : World} (h : Holds w) (env : Environment) :
    Holds ((collect env).exec w).2 ∧
      (Cleared env w ((collect env).exec w).2 ↔ Unrefused env w) := by
  have hloop : wp (collect env) (fun _ w' => Holds w' ∧
      w'.pending = remaining w.profiler env (answers env 0 w.device w.pending)) w := by
    unfold collect
    rw [wp_bind, wp_read]
    simpa using collectLoop_spec env w.pending 0 [] h rfl
  obtain ⟨hholds, hpending⟩ := hloop
  refine ⟨hholds, ?_⟩
  have hids : (w.holders.map Record.id).Nodup := (List.nodup_append.mp h.nodup_ids).1
  have hnodup : ((answers env 0 w.device w.pending).map Prod.fst).Nodup := by
    rw [map_answers]
    exact (List.nodup_append.mp (List.Nodup.of_map _ hids)).2.1
  unfold Unrefused
  rw [← remaining_unanswered_iff hnodup]
  unfold Cleared
  rw [hpending]
  constructor
  · exact fun hcleared r hr => (hcleared r hr).2
  · intro hcleared r hr
    refine ⟨Bool.eq_false_iff.mpr fun hready => ?_, hcleared r hr⟩
    have hmem := mem_of_mem_remaining hr
    rw [map_answers] at hmem
    exact hcleared r hr (answers_of_ready hmem hready)

/-! ## the other calls -/

theorem open_insert (w : World) (scope : Scope) :
    (Table.values (w.scopes.insert scope.id scope)).filter (·.queue) =
      (if scope.queue then [scope] else []) ++
        (Table.values (w.scopes.erase scope.id)).filter (·.queue) := by
  rw [Table.values_insert, List.filter_cons]
  split <;> rfl

theorem open_perm {w : World} {scope : Scope} (h : w.scopes.lookup scope.id = some scope) :
    w.open_.Perm ((if scope.queue then [scope] else []) ++
      (Table.values (w.scopes.erase scope.id)).filter (·.queue)) := by
  refine ((Table.values_perm h).filter _).trans (List.Perm.of_eq ?_)
  rw [List.filter_cons]
  split <;> rfl

/-- recording changes the device alone, and creates nothing -/
theorem exec_record (event : EventHandle) (stream : StreamHandle) (w : World) :
    ∃ d : Device, d.created = w.device.created ∧
      (record event stream).exec w = (.ok (), { w with device := d }) := by
  cases event with
  | none => exact ⟨w.device, rfl, rfl⟩
  | some e => exact ⟨w.device.record e stream, rfl, rfl⟩

theorem keys_insert {w : World} (h : Holds w) {scope scope' : Scope}
    (hscope : w.scopes.lookup scope.id = some scope) (hid : scope'.id = scope.id) :
    ∀ id x, (w.scopes.insert scope.id scope').lookup id = some x →
      x.id = id ∧ id < w.begun.length := by
  intro id x hx
  rw [Table.lookup_insert'] at hx
  split at hx
  · next heq =>
    obtain rfl := Option.some.inj hx
    exact ⟨hid.trans heq.symm, heq ▸ (h.keys _ _ hscope).2⟩
  · exact h.keys id x hx

theorem holds_finish {w : World} (h : Holds w) {scope : Scope}
    (hscope : w.scopes.lookup scope.id = some scope) (allocates : Bool) :
    wp (do
      let scope' ← scope.finish allocates
      update fun w => { w with scopes := w.scopes.insert scope.id scope' } : Code Unit)
      (fun _ w' => Holds w') w := by
  obtain ⟨d, hcreated, hrecord⟩ := exec_record scope.stop scope.stream w
  have hrecorded : Holds { w with device := d } :=
    h.keep ⟨rfl, hcreated, h.keys⟩ (List.Perm.refl _) rfl rfl rfl rfl
  unfold Scope.finish Profiling.finish
  simp only [wp_bind, wp_throwIf]
  by_cases hqueue : scope.queue = true
  · rw [if_neg (by simp [hqueue]), wp_def, hrecord]
    dsimp only
    split
    · exact hrecorded
    · simp only [wp_update, wp_pure]
      refine hrecorded.keep ⟨rfl, rfl, keys_insert h hscope rfl⟩ ?_ rfl rfl rfl rfl
      have hopen := (open_perm hscope).map Scope.toRecord
      rw [if_pos hqueue] at hopen
      refine List.Perm.trans ?_ (hopen.symm.append_right _)
      unfold World.holders World.open_
      rw [Table.values_insert]
      refine List.perm_iff_count.mpr fun r => ?_
      simp only [List.filter_cons, Bool.false_eq_true, if_false, List.count_append, List.map_append,
        List.map_singleton]
      omega
  · rw [if_pos (by simpa using hqueue)]
    exact h

theorem holds_destruct {w : World} (h : Holds w) {scope : Scope}
    (hscope : w.scopes.lookup scope.id = some scope) :
    wp (do
      scope.destruct
      update fun w => { w with scopes := w.scopes.erase scope.id } : Code Unit)
      (fun _ w' => Holds w') w := by
  have hkeys : ∀ id x, (w.scopes.erase scope.id).lookup id = some x →
      x.id = id ∧ id < w.begun.length := by
    intro id x hx
    rw [Table.lookup_erase'] at hx
    split at hx
    · cases hx
    · exact h.keys id x hx
  have hopen := (open_perm hscope).map Scope.toRecord
  unfold Scope.destruct
  by_cases hqueue : scope.queue = true
  · unfold abort synchronize onDevice destroy release
    rw [if_pos hqueue]
    rw [if_pos hqueue] at hopen
    simp only [wp_bind, wp_update]
    refine h.drop ⟨rfl, rfl, hkeys⟩ (hopen.append_right _) (List.append_assoc _ _ _) rfl
      (Or.inr (Function.update_self _ _ _)) (Or.inl rfl) rfl
  · rw [if_neg hqueue]
    rw [if_neg hqueue] at hopen
    simp only [wp_bind, wp_update, wp_pure]
    exact h.keep ⟨rfl, rfl, hkeys⟩ (hopen.symm.append_right _) rfl rfl rfl rfl

theorem holds_begin {w : World} (h : Holds w) (halive : w.alive = true) (operation : GpuOperation)
    (stream : StreamHandle) (owners : List Owner) :
    wp (do
      let scope ← begin_ operation stream owners
      update fun w =>
        { w with scopes := w.scopes.insert scope.id scope, begun := w.begun ++ [scope.begun] }
      : Code Unit) (fun _ w' => Holds w') w := by
  have hfresh : w.scopes.lookup w.begun.length = none := by
    cases hlookup : w.scopes.lookup w.begun.length with
    | none => rfl
    | some scope => exact absurd (h.keys _ _ hlookup).2 (Nat.lt_irrefl _)
  have hstore : ∀ (scope : Scope) (d : Device), scope.id = w.begun.length → scope.queue = true →
      (scope.events ++ List.range w.device.created).Perm (List.range d.created) →
      Holds { w with
        device := d, scopes := w.scopes.insert scope.id scope,
        begun := w.begun ++ [scope.begun] } := by
    intro scope d hid hqueue hcreated
    refine h.acquire (List.Perm.of_eq ?_) rfl hid hcreated ?_ rfl rfl rfl halive
    · unfold World.holders World.open_
      rw [open_insert w, if_pos hqueue, hid, Table.values_erase_of_none hfresh]
      rfl
    · intro id x hx
      rw [Table.lookup_insert'] at hx
      rw [List.length_append]
      split at hx
      · next heq =>
        obtain rfl := Option.some.inj hx
        exact ⟨heq.symm, by rw [heq, hid]; exact Nat.lt_succ_self _⟩
      · exact ⟨(h.keys id x hx).1, Nat.lt_succ_of_lt (h.keys id x hx).2⟩
  unfold begin_
  simp only [wp_bind, wp_read]
  by_cases hprofiler : w.profiler = true
  · let started : Device := { w.device with created := w.device.created + 1 }
    let stopped : Device :=
      { started.record w.device.created stream with created := w.device.created + 1 + 1 }
    rw [if_pos hprofiler]
    refine hstore ⟨⟨w.begun.length, operation, stream, some w.device.created,
      some (w.device.created + 1), owners⟩, true⟩ stopped rfl rfl ?_
    show ([w.device.created, w.device.created + 1] ++ _).Perm (List.range (w.device.created + 1 + 1))
    rw [List.range_succ, List.range_succ, List.append_assoc]
    exact List.perm_append_comm
  · rw [if_neg hprofiler]
    refine hstore ⟨⟨w.begun.length, operation, stream, none, some w.device.created, owners⟩, true⟩
      { w.device with created := w.device.created + 1 } rfl rfl ?_
    show ([w.device.created] ++ _).Perm (List.range (w.device.created + 1))
    rw [List.range_succ]
    exact List.perm_append_comm

/-! the destructor of the queue -/

/-- the device after the stream of each of the records is synchronized -/
def drained (l : List Record) (d : Device) : Device :=
  l.foldl (fun d r => d.synchronize r.stream) d

theorem exec_drain (l : List Record) (w : World) : (drain l).exec w =
    (.ok (), { w with
      device := drained l w.device, destroyed := w.destroyed ++ l.flatMap Record.events }) := by
  induction l generalizing w with
  | nil => simp only [List.flatMap_nil, List.append_nil]; rfl
  | cons r l ih =>
    show (drain l).exec { w with
      device := w.device.synchronize r.stream,
      destroyed := w.destroyed ++ r.start.toList ++ r.stop.toList } = _
    rw [ih, List.flatMap_cons, ← List.append_assoc, List.append_assoc w.destroyed]
    rfl

theorem exec_releaseAll (l : List Record) (w : World) : (releaseAll l).exec w =
    (.ok (), { w with released := w.released ++ l.map fun r => ⟨r, w.device⟩ }) := by
  induction l generalizing w with
  | nil => simp only [List.map_nil, List.append_nil]; rfl
  | cons r l ih =>
    show (releaseAll l).exec { w with released := w.released ++ [⟨r, w.device⟩] } = _
    rw [ih, List.map_cons, List.append_assoc]
    rfl

theorem drained_keeps {d : Device} {stream : StreamHandle} (h : d.Drained stream)
    (l : List Record) : (drained l d).Drained stream := by
  induction l generalizing d with
  | nil => exact h
  | cons r l ih =>
    refine ih (d := d.synchronize r.stream) ?_
    show Function.update d.completed r.stream (d.enqueued r.stream) stream = d.enqueued stream
    by_cases hs : stream = r.stream
    · rw [hs, Function.update_self]
    · rw [Function.update_of_ne hs]
      exact h

theorem drained_all {l : List Record} {r : Record} (hr : r ∈ l) (d : Device) :
    (drained l d).Drained r.stream := by
  induction l generalizing d with
  | nil => cases hr
  | cons a l ih =>
    rcases List.mem_cons.mp hr with rfl | hr
    · have hdrained : (d.synchronize r.stream).Drained r.stream := Function.update_self _ _ _
      exact drained_keeps hdrained l
    · exact ih hr _

theorem created_drained (l : List Record) (d : Device) : (drained l d).created = d.created := by
  induction l generalizing d with
  | nil => rfl
  | cons r l ih => exact ih _

theorem exec_teardown (w : World) : (teardown.exec w).2 =
    { w with
      device := drained w.pending w.device
      destroyed := w.destroyed ++ w.pending.flatMap Record.events
      released := w.released ++ w.pending.map fun r => ⟨r, drained w.pending w.device⟩
      pending := []
      alive := false } := by
  unfold teardown
  show ((drain w.pending >>= fun _ => (_ : Code Unit)).exec w).2 = _
  rw [exec_bind, exec_drain]
  dsimp only
  rw [exec_bind, exec_releaseAll]
  rfl

theorem holds_teardown {w : World} (h : Holds w) (hopen : w.open_ = []) :
    Holds (teardown.exec w).2 := by
  have hholders : w.holders = w.pending := by
    unfold World.holders
    rw [hopen]
    rfl
  rw [exec_teardown]
  have hnone : World.holders { w with
      device := drained w.pending w.device
      destroyed := w.destroyed ++ w.pending.flatMap Record.events
      released := w.released ++ w.pending.map fun r => ⟨r, drained w.pending w.device⟩
      pending := []
      alive := false } = [] := by
    show w.open_.map _ ++ [] = []
    rw [hopen]
    rfl
  refine ⟨?_, ?_, h.ids, ?_, h.timedOnce, ?_, h.keys, fun _ => hnone⟩
  · rw [hnone]
    show (w.destroyed ++ w.pending.flatMap Record.events).Perm
      (List.range (drained w.pending w.device).created)
    rw [created_drained, ← hholders]
    exact List.perm_append_comm.trans h.events
  · rw [hnone]
    show ((w.released ++ w.pending.map _).map _).Perm w.begun
    rw [List.map_append, List.map_map, ← hholders]
    exact List.perm_append_comm.trans h.begun
  · intro r hr
    rcases List.mem_append.mp hr with hr | hr
    · exact h.safe r hr
    · obtain ⟨r', hr', rfl⟩ := List.mem_map.mp hr
      exact Or.inr (drained_all hr' _)
  · intro t ht
    show t.1 ∈ (w.released ++ _).map _
    rw [List.map_append, List.mem_append]
    exact Or.inl (h.timedReleased t ht)

/-! ## any run -/

theorem Holds.step {w w' : World} {a : Action} (h : Holds w) (ha : step a w = some w') :
    Holds w' := by
  cases a with
  | begin_ operation stream owners =>
    rw [Profiling.step] at ha
    split at ha
    · next halive => exact Option.some.inj ha ▸ holds_begin h halive operation stream owners
    · cases ha
  | finish id allocates =>
    rw [Profiling.step] at ha
    split at ha
    · cases ha
    · next scope hscope =>
      obtain rfl := (h.keys _ _ hscope).1
      exact Option.some.inj ha ▸ holds_finish h hscope allocates
  | destruct id =>
    rw [Profiling.step] at ha
    split at ha
    · cases ha
    · next scope hscope =>
      obtain rfl := (h.keys _ _ hscope).1
      exact Option.some.inj ha ▸ holds_destruct h hscope
  | collect env =>
    rw [Profiling.step] at ha
    split at ha
    · exact Option.some.inj ha ▸ (holds_collect h env).1
    · cases ha
  | teardown =>
    rw [Profiling.step] at ha
    split at ha
    · next hw => exact Option.some.inj ha ▸ holds_teardown h hw.2
    · cases ha
  | enqueue stream =>
    exact Option.some.inj ha ▸ h.keep ⟨rfl, rfl, h.keys⟩ (List.Perm.refl _) rfl rfl rfl rfl
  | complete target =>
    exact Option.some.inj ha ▸ h.keep ⟨rfl, rfl, h.keys⟩ (List.Perm.refl _) rfl rfl rfl rfl

/-- owners are held until their work is done and released once, events are held or destroyed once,
and a time is recorded at most once -/
structure Lifetimes (w : World) : Prop where
  released : ∀ r ∈ w.released, r.device.ready r.record.stop = true ∨ r.device.Drained r.record.stream
  owners : (w.holders.map Record.begun ++ w.released.map fun r => r.record.begun).Perm w.begun
  events : (w.holders.flatMap Record.events ++ w.destroyed).Perm (List.range w.device.created)
  ended : w.alive = false → (w.released.map fun r => r.record.begun).Perm w.begun ∧
    w.destroyed.Perm (List.range w.device.created)
  timed : (w.timed.map Prod.fst).Nodup

theorem Holds.lifetimes {w : World} (h : Holds w) : Lifetimes w where
  released := h.safe
  owners := h.begun
  events := h.events
  ended hclosed := by
    have howners := h.begun
    have hevents := h.events
    rw [h.closed hclosed] at howners hevents
    exact ⟨howners, hevents⟩
  timed := h.timedOnce

/-- what is asked of a step -/
def Proper (w : World) (a : Action) (w' : World) : Prop :=
  Lifetimes w' ∧ match a with
    | .collect env => Cleared env w w'
    | _ => True

/-- a `collect` that refuses a time of an operation found complete -/
def Refuses (w : World) (a : Action) (_ : World) : Prop :=
  match a with
  | .collect env => ¬ Unrefused env w
  | _ => False

theorem proper_iff {w w' : World} {a : Action} (h : Holds w) (ha : step a w = some w') :
    Proper w a w' ↔ ¬ Refuses w a w' := by
  have hlife := (h.step ha).lifetimes
  unfold Proper Refuses
  cases a with
  | collect env =>
    rw [Profiling.step] at ha
    split at ha
    · obtain rfl := Option.some.inj ha
      exact (and_iff_right hlife).trans ((holds_collect h env).2.trans not_not.symm)
    · cases ha
  | _ => exact (and_iff_right hlife).trans (iff_of_true trivial not_false)

/-! ## valid times -/

/-- finite, not negative, and an `int64` in nanoseconds -/
def Valid : Option ℚ → Prop
  | none => False
  | some milliseconds => 0 ≤ milliseconds ∧ milliseconds * 1000000 < 2 ^ 63

theorem taken_of_valid {env : Environment} {x : Option ℚ} (h : Valid x) : Taken env x := by
  cases x with
  | none => exact h
  | some milliseconds =>
    obtain ⟨hpos, hrange⟩ := h
    refine ⟨hpos, ?_⟩
    have hfloor : 0 ≤ (milliseconds * 1000000).floor :=
      Int.le_floor.mpr (mul_nonneg hpos (by decide +kernel))
    have hbound : (milliseconds * 1000000).floor < 2 ^ 63 := by
      show ⌊milliseconds * 1000000⌋ < 2 ^ 63
      exact Int.floor_lt.mpr (by exact_mod_cast hrange)
    unfold nanoseconds
    rw [if_pos hrange, Int64.le_iff_toInt_le, Int64.toInt_ofInt_of_le (by omega) hbound]
    exact hfloor

/-- where a number that is no `int64` converts to a negative one, no other time is taken -/
theorem valid_of_taken {env : Environment} {x : Option ℚ} (hout : ∀ y, env.outOfRange y < 0)
    (h : Taken env x) : Valid x := by
  cases x with
  | none => exact h
  | some milliseconds =>
    obtain ⟨hpos, hcast⟩ := h
    refine ⟨hpos, ?_⟩
    by_contra hrange
    unfold nanoseconds at hcast
    rw [if_neg hrange] at hcast
    exact absurd hcast (Int64.not_le.mpr (hout _))

/-- every operation found complete has a valid time, where somebody asks for it -/
def Sampled (env : Environment) (w : World) : Prop :=
  ∀ a ∈ answers env 0 w.device w.pending, a.2 = true → w.profiler = true →
    Valid (env.elapsedMs a.1.start a.1.stop)

/-- the times that a `collect` reads are valid -/
def ValidTimes (w : World) (a : Action) (_ : World) : Prop :=
  match a with
  | .collect env => Sampled env w
  | _ => True

theorem not_refuses {w w' : World} {a : Action} (h : ValidTimes w a w') : ¬ Refuses w a w' := by
  cases a with
  | collect env =>
    exact not_not.mpr fun r hr hready hbad => hbad.2 (taken_of_valid (h r hr hready hbad.1))
  | _ => exact not_false

theorem validTimes_of_not_refuses {w w' : World} {a : Action}
    (hout : ∀ env, a = .collect env → ∀ y, env.outOfRange y < 0) (h : ¬ Refuses w a w') :
    ValidTimes w a w' := by
  cases a with
  | collect env =>
    intro r hr hready hprofiler
    refine valid_of_taken (hout env rfl) ?_
    by_contra htaken
    exact not_not.mp h r hr hready ⟨hprofiler, htaken⟩
  | _ => trivial

/-- valid times are enough, whatever a number out of range converts to; where it converts to a
negative one, they are needed -/
theorem run_lifetimes (profiler : Bool) (as : List Action) :
    (Runs.Along step ValidTimes (start profiler) as → Runs.Along step Proper (start profiler) as) ∧
    ((∀ env, .collect env ∈ as → ∀ y, env.outOfRange y < 0) →
      Runs.Along step Proper (start profiler) as →
      Runs.Along step ValidTimes (start profiler) as) := by
  constructor
  · exact fun h => Runs.along_of_keeps (I := Holds) (fun _ _ _ ha _ hs => hs.step ha)
      (fun _ _ _ ha hc hs => (proper_iff hs ha).mpr (not_refuses hc)) as _ h (holds_start profiler)
  · intro hout h
    have hconverts : ∀ a ∈ as, ∀ env, a = .collect env → ∀ y, env.outOfRange y < 0 :=
      fun a ha env e => hout env (e ▸ ha)
    have hsays : Runs.Along step (fun _ a _ => ∀ env, a = .collect env → ∀ y, env.outOfRange y < 0)
        (start profiler) as := Runs.along_of_forall hconverts _
    exact Runs.along_of_keeps (I := Holds) (fun _ _ _ ha _ hs => hs.step ha)
      (fun _ _ _ ha hc hs => validTimes_of_not_refuses hc.2 ((proper_iff hs ha).mp hc.1)) as _
      (Runs.along_and h hsays) (holds_start profiler)

/-- two operations complete on one stream -/
def completedActions : List Action :=
  [.begin_ .Int8Gemm 0 [12], .enqueue 0, .finish 0 true, .begin_ .Int8Gemm 0 [13], .enqueue 0,
    .finish 1 true, .complete fun _ => 2]

/-- the time of the first of them is not finite -/
def brokenClock : Environment where
  advance _ _ := 0
  elapsedMs startEvent _ := if startEvent = some 0 then none else some (1 / 4)
  outOfRange _ := Int64.minValue

/-- `collect` throws, and both operations stay with their owners -/
theorem invalid_time_wedges :
    ¬ ∀ as, Runs.Along step Proper (start true) as := by
  intro h
  obtain ⟨w, hrun, w', hstep, hpending⟩ : ∃ w, Runs.run step (start true) completedActions = some w ∧
      ∃ w', step (.collect brokenClock) w = some w' ∧
        w'.pending.map (fun r => (r.id, w.device.ready r.stop)) = [(0, true), (1, true)] :=
    ⟨_, rfl, _, rfl, rfl⟩
  obtain ⟨-, hcleared⟩ := Runs.along_last (h (completedActions ++ [.collect brokenClock])) hrun hstep
  have hmem : ((0, true) : Nat × Bool) ∈ w'.pending.map fun r => (r.id, w.device.ready r.stop) := by
    rw [hpending]
    exact List.mem_cons_self
  obtain ⟨r, hr, hready⟩ := List.mem_map.mp hmem
  have hfalse := (hcleared r hr).1
  rw [(Prod.mk.inj hready).2] at hfalse
  exact nomatch hfalse

end HyperMoE.Profiling
