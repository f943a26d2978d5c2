import Mathlib.Data.List.Basic

/-!
# Slots that are written one after the other

Items are written in order; an item may be for a slot or not, and a slot holds the last item that
was written to it.

* `last hits as k`     the item that the slot `k` holds when `as` was written;
* `last_concat`        one more item;
* `Single hits as k`   at most one item is for the slot;
* `single_concat`      an item that finds its slot empty keeps it so;
* `Single.last_eq`     a slot holds the one item that is for it.
-/

namespace HyperMoE.Lib.Slots

variable {α κ : Type} {hits : α → κ → Bool} {as : List α} {a : α} {k : κ}

def last (hits : α → κ → Bool) (as : List α) (k : κ) : Option α := (as.filter (hits · k)).getLast?

def Single (hits : α → κ → Bool) (as : List α) (k : κ) : Prop :=
  ∀ a ∈ as, ∀ b ∈ as, hits a k = true → hits b k = true → a = b

theorem last_concat (as : List α) (a : α) (k : κ) :
    last hits (as ++ [a]) k = if hits a k then some a else last hits as k := by
  unfold last
  rw [List.filter_append]
  cases h : hits a k with
  | true => simp [h]
  | false => simp [h]

/-- what a slot holds was written to it -/
theorem last_mem (h : last hits as k = some a) : a ∈ as ∧ hits a k = true :=
  List.mem_filter.mp (List.mem_of_getLast? h)

theorem last_eq_none : last hits as k = none ↔ ∀ a ∈ as, hits a k = false := by
  unfold last
  rw [List.getLast?_eq_none_iff, List.filter_eq_nil_iff]
  exact forall₂_congr fun a _ => by rw [Bool.not_eq_true]

theorem single_nil : Single hits [] k := fun _ ha => nomatch ha

theorem single_concat (h : Single hits as k) (hempty : hits a k = true → last hits as k = none) :
    Single hits (as ++ [a]) k := by
  have hne : ∀ b ∈ as, hits a k = true → hits b k = true → False := fun b hb ha hbk =>
    absurd hbk (by simp [last_eq_none.mp (hempty ha) b hb])
  intro x hx y hy hxk hyk
  rcases List.mem_append.mp hx with hx' | hx' <;> rcases List.mem_append.mp hy with hy' | hy'
  · exact h x hx' y hy' hxk hyk
  · obtain rfl := List.mem_singleton.mp hy'
    exact (hne x hx' hyk hxk).elim
  · obtain rfl := List.mem_singleton.mp hx'
    exact (hne y hy' hxk hyk).elim
  · rw [List.mem_singleton.mp hx', List.mem_singleton.mp hy']

theorem Single.last_eq (h : Single hits as k) (ha : a ∈ as) (hk : hits a k = true) :
    last hits as k = some a := by
  cases hlast : last hits as k with
  | none => exact absurd hk (by simp [last_eq_none.mp hlast a ha])
  | some b =>
    obtain ⟨hb, hbk⟩ := last_mem hlast
    exact congrArg some (h b hb a ha hbk hk)

/-- two items that give one key are one, where no key is given twice -/
theorem eq_of_filterMap_nodup {f : α → Option κ} {b : α} (h : (as.filterMap f).Nodup) (ha : a ∈ as)
    (hb : b ∈ as) (hfa : f a = some k) (hfb : f b = some k) : a = b := by
  induction as with
  | nil => exact nomatch ha
  | cons c as ih =>
    have hnew : ∀ {x}, x ∈ as → f c = some k → f x = some k → False := fun {x} hx hc hfx => by
      rw [List.filterMap_cons_some hc, List.nodup_cons] at h
      exact h.1 (List.mem_filterMap.mpr ⟨x, hx, hfx⟩)
    have hrest : (as.filterMap f).Nodup := by
      cases hc : f c with
      | none => rwa [List.filterMap_cons_none hc] at h
      | some y =>
        rw [List.filterMap_cons_some hc] at h
        exact (List.nodup_cons.mp h).2
    rcases List.mem_cons.mp ha with rfl | ha' <;> rcases List.mem_cons.mp hb with rfl | hb'
    · rfl
    · exact (hnew hb' hfa hfb).elim
    · exact (hnew ha' hfb hfa).elim
    · exact ih hrest ha' hb'

end HyperMoE.Lib.Slots
