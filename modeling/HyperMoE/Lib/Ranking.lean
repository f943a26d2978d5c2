import Mathlib.Data.List.Sort
import Mathlib.Data.Prod.Lex
import Mathlib.Order.Basic

/-!
# The first of a ranking

`before` is a strict order in which the elements of a pool are comparable.  The first `k` of the
pool do not depend on how they are found.

* `Ranks before pool`            the order is one for this pool;
* `Leading before pool chosen`   `chosen` are the first of the pool, in order;
* `Leading.take_of_sorted`       a prefix of the sorted pool;
* `Ranks.of_key`, `leading_mergeSort`, `leading_insertionSort`   an order by a key, and the two sorts;
* `keyed`, `leading_stableSort`   a key that may be equal, and a stable sort;
* `Leading.snoc`                 one more, found as the first of the rest;
* `Leading.unique`               the first `k` are unique.
-/

namespace HyperMoE.Lib

variable {α : Type} {before : α → α → Prop} {pool chosen chosen' : List α}

structure Ranks (before : α → α → Prop) (pool : List α) : Prop where
  irrefl : ∀ a, ¬ before a a
  trans : ∀ a b c, before a b → before b c → before a c
  total : ∀ a ∈ pool, ∀ b ∈ pool, a ≠ b → before a b ∨ before b a

theorem Ranks.asymm (h : Ranks before pool) {a b : α} (hab : before a b) : ¬ before b a :=
  fun hba => h.irrefl a (h.trans a b a hab hba)

/-- the elements that are not after one another, as a sort leaves them -/
theorem Ranks.pairwise (h : Ranks before pool) {l : List α} (hsub : ∀ a ∈ l, a ∈ pool)
    (hnodup : l.Nodup) (hl : l.Pairwise fun a b => ¬ before b a) : l.Pairwise before := by
  refine (hl.and hnodup).imp_of_mem fun {a b} ha hb hab => ?_
  exact (h.total a (hsub a ha) b (hsub b hb) hab.2).resolve_right hab.1

structure Leading (before : α → α → Prop) (pool chosen : List α) : Prop where
  sorted : chosen.Pairwise before
  mem : ∀ a ∈ chosen, a ∈ pool
  omitted : ∀ a ∈ chosen, ∀ b ∈ pool, b ∉ chosen → before a b

theorem Leading.nil : Leading before pool [] where
  sorted := .nil
  mem _ h := absurd h List.not_mem_nil
  omitted _ h := absurd h List.not_mem_nil

theorem Leading.take_of_sorted {l : List α} (hl : l.Pairwise before) (hperm : l.Perm pool)
    (k : Nat) : Leading before pool (l.take k) where
  sorted := hl.sublist (List.take_sublist k l)
  mem a ha := hperm.mem_iff.mp (List.mem_of_mem_take ha)
  omitted a ha b hb hnot := by
    have hbl : b ∈ l.take k ++ l.drop k := by
      rw [List.take_append_drop]
      exact hperm.mem_iff.mpr hb
    have hdrop : b ∈ l.drop k := (List.mem_append.mp hbl).resolve_left hnot
    rw [← List.take_append_drop k l] at hl
    exact (List.pairwise_append.mp hl).2.2 a ha b hdrop

/-- the sort by "not after" and then the first `k` of it -/
theorem Leading.take_of_notAfter (h : Ranks before pool) (hnodup : pool.Nodup) {l : List α}
    (hperm : l.Perm pool) (hl : l.Pairwise fun a b => ¬ before b a) (k : Nat) :
    Leading before pool (l.take k) :=
  .take_of_sorted (h.pairwise (fun _ ha => hperm.mem_iff.mp ha) (hperm.nodup_iff.mpr hnodup) hl)
    hperm k

theorem Leading.snoc (h : Leading before pool chosen) {best : α} (hmem : best ∈ pool)
    (hnot : best ∉ chosen)
    (hbest : ∀ b ∈ pool, b ∉ chosen → b ≠ best → before best b) :
    Leading before pool (chosen ++ [best]) where
  sorted := by
    refine List.pairwise_append.mpr ⟨h.sorted, List.pairwise_singleton _ _, fun a ha b hb => ?_⟩
    rw [List.mem_singleton.mp hb]
    exact h.omitted a ha best hmem hnot
  mem a ha := by
    rcases List.mem_append.mp ha with ha | ha
    · exact h.mem a ha
    · exact List.mem_singleton.mp ha ▸ hmem
  omitted a ha b hb hout := by
    rw [List.mem_append, not_or, List.mem_singleton] at hout
    rcases List.mem_append.mp ha with ha | ha
    · exact h.omitted a ha b hb hout.1
    · exact List.mem_singleton.mp ha ▸ hbest b hb hout.1 hout.2

theorem Leading.nodup (hr : Ranks before pool) (h : Leading before pool chosen) : chosen.Nodup := by
  refine h.sorted.imp fun {a b} hab he => ?_
  rw [he] at hab
  exact hr.irrefl b hab

/-- what a choice takes at the first place where two differ is before what the other one takes -/
theorem Leading.before_of_ne (hr : Ranks before pool) (h : Leading before pool chosen)
    (h' : Leading before pool chosen') {k : Nat} (hk : k < chosen.length) (hk' : k < chosen'.length)
    (htake : chosen.take k = chosen'.take k) (hne : chosen[k] ≠ chosen'[k]) :
    before chosen[k] chosen'[k] := by
  by_cases hmem : chosen'[k] ∈ chosen
  · obtain ⟨j, hj, hget⟩ := List.getElem_of_mem hmem
    rcases Nat.lt_trichotomy j k with hlt | heq | hgt
    · -- taken before the place `k`, so twice in `chosen'`
      have hj' : j < chosen'.length := Nat.lt_trans hlt hk'
      have hsame : chosen[j] = chosen'[j] := by
        have h₁ : (chosen.take k)[j]? = some chosen[j] := by
          rw [List.getElem?_take_of_lt hlt, List.getElem?_eq_getElem hj]
        have h₂ : (chosen'.take k)[j]? = some chosen'[j] := by
          rw [List.getElem?_take_of_lt hlt, List.getElem?_eq_getElem hj']
        exact Option.some.inj (h₁.symm.trans (htake ▸ h₂))
      have hindex := (h'.nodup hr).getElem_inj_iff.mp (hsame.symm.trans hget)
      exact absurd hindex (Nat.ne_of_lt hlt)
    · subst heq
      exact absurd hget hne
    · have := List.pairwise_iff_getElem.mp h.sorted k j hk hj hgt
      rwa [hget] at this
  · exact h.omitted _ (List.getElem_mem hk) _ (h'.mem _ (List.getElem_mem hk')) hmem

theorem Leading.unique (hr : Ranks before pool) (h : Leading before pool chosen)
    (h' : Leading before pool chosen') (hlength : chosen.length = chosen'.length) :
    chosen = chosen' := by
  have hagree : ∀ k, k ≤ chosen.length → chosen.take k = chosen'.take k := by
    intro k
    induction k with
    | zero => exact fun _ => rfl
    | succ k ih =>
      intro hk
      have hlt : k < chosen.length := hk
      have hlt' : k < chosen'.length := hlength ▸ hlt
      have htake := ih (Nat.le_of_lt hlt)
      have hget : chosen[k] = chosen'[k] := by
        by_contra hne
        exact hr.asymm (h.before_of_ne hr h' hlt hlt' htake hne)
          (h'.before_of_ne hr h hlt' hlt htake.symm (Ne.symm hne))
      rw [List.take_succ_eq_append_getElem hlt, List.take_succ_eq_append_getElem hlt', htake, hget]
  have hall := hagree chosen.length (Nat.le_refl _)
  rwa [List.take_length, hlength, List.take_length] at hall

/-! ## an order by a key -/

section
variable {β : Type} [LinearOrder β] {key : α → β}

theorem Ranks.of_key (hkey : ∀ a b, before a b ↔ key a < key b)
    (hinj : ∀ a ∈ pool, ∀ b ∈ pool, key a = key b → a = b) : Ranks before pool where
  irrefl a h := lt_irrefl _ ((hkey a a).mp h)
  trans a b c hab hbc := (hkey a c).mpr (((hkey a b).mp hab).trans ((hkey b c).mp hbc))
  total a ha b hb hab := by
    rw [hkey, hkey]
    exact lt_or_gt_of_ne fun he => hab (hinj a ha b hb he)

variable [DecidableRel before]

theorem leading_mergeSort (hkey : ∀ a b, before a b ↔ key a < key b)
    (hinj : ∀ a ∈ pool, ∀ b ∈ pool, key a = key b → a = b) (hnodup : pool.Nodup) (k : Nat) :
    Leading before pool ((pool.mergeSort fun a b => decide (¬ before b a)).take k) := by
  have hle : ∀ a b, ¬ before b a ↔ key a ≤ key b := fun a b => by rw [hkey, not_lt]
  refine .take_of_notAfter (.of_key hkey hinj) hnodup (List.mergeSort_perm _ _) ?_ k
  refine (List.pairwise_mergeSort ?_ ?_ pool).imp fun hab => of_decide_eq_true hab
  · intro a b c hab hbc
    rw [decide_eq_true_iff, hle] at *
    exact hab.trans hbc
  · intro a b
    rw [Bool.or_eq_true, decide_eq_true_iff, decide_eq_true_iff, hle, hle]
    exact le_total _ _

theorem leading_insertionSort (hkey : ∀ a b, before a b ↔ key a < key b)
    (hinj : ∀ a ∈ pool, ∀ b ∈ pool, key a = key b → a = b) (hnodup : pool.Nodup) (k : Nat) :
    Leading before pool ((pool.insertionSort fun a b => ¬ before b a).take k) := by
  have hle : ∀ a b, ¬ before b a ↔ key a ≤ key b := fun a b => by rw [hkey, not_lt]
  have htotal : Std.Total fun a b => ¬ before b a :=
    ⟨fun a b => by rw [hle, hle]; exact le_total _ _⟩
  have htrans : IsTrans α fun a b => ¬ before b a :=
    ⟨fun a b c => by rw [hle, hle, hle]; exact le_trans⟩
  exact .take_of_notAfter (.of_key hkey hinj) hnodup (List.perm_insertionSort _ _)
    (List.pairwise_insertionSort _ pool) k

end

/-! ## a stable sort -/

section
variable {β : Type} [LinearOrder α] [LinearOrder β]

/-- by the key, and by the elements themselves where it is equal -/
def keyed (key : α → β) (a b : α) : Prop := key a < key b ∨ key a = key b ∧ a < b

theorem ranks_keyed (key : α → β) : Ranks (keyed key) pool := by
  have hkey : ∀ a b, keyed key a b ↔ toLex (key a, a) < toLex (key b, b) := by
    intro a b
    rw [Prod.Lex.toLex_lt_toLex]
    rfl
  refine .of_key hkey fun a _ b _ h => ?_
  exact (Prod.mk.inj (toLex.injective h)).2

theorem pair_sublist_of_lt (hpool : pool.Pairwise (· < ·)) {a b : α} (ha : a ∈ pool) (hb : b ∈ pool)
    (hab : a < b) : [a, b].Sublist pool := by
  have hnodup : [a, b].Nodup := by
    rw [List.nodup_cons, List.mem_singleton]
    exact ⟨hab.ne, List.nodup_singleton b⟩
  refine List.sublist_of_subperm_of_pairwise (r := (· < ·)) (List.subperm_of_subset hnodup ?_)
    (List.pairwise_pair.mpr hab) hpool
  intro x hx
  rcases List.mem_pair.mp hx with rfl | rfl
  · exact ha
  · exact hb

theorem not_sublist_swap {l : List α} (hl : l.Nodup) {a b : α} (hab : [a, b].Sublist l) :
    ¬ [b, a].Sublist l := by
  intro hba
  have h : l.Pairwise fun x y => l.idxOf x < l.idxOf y := by
    rw [List.pairwise_iff_getElem]
    intro i j hi hj hij
    rwa [hl.idxOf_getElem, hl.idxOf_getElem]
  have hlt := List.pairwise_pair.mp (h.sublist hab)
  exact absurd (List.pairwise_pair.mp (h.sublist hba)) (not_lt.mpr hlt.le)

/-- equal keys stay in the order of the pool -/
theorem leading_stableSort (key : α → β) (hpool : pool.Pairwise (· < ·)) (k : Nat) :
    Leading (keyed key) pool ((pool.mergeSort fun a b => decide (key a ≤ key b)).take k) := by
  have htrans : ∀ a b c : α, decide (key a ≤ key b) = true → decide (key b ≤ key c) = true →
      decide (key a ≤ key c) = true := by
    intro a b c hab hbc
    rw [decide_eq_true_iff] at *
    exact hab.trans hbc
  have htotal : ∀ a b : α, (decide (key a ≤ key b) || decide (key b ≤ key a)) = true := by
    intro a b
    rw [Bool.or_eq_true, decide_eq_true_iff, decide_eq_true_iff]
    exact le_total _ _
  have hnodup : pool.Nodup := hpool.imp fun hab => hab.ne
  refine .take_of_sorted ?_ (List.mergeSort_perm _ _) k
  rw [List.pairwise_iff_forall_sublist]
  intro a b hab
  have hmem : ∀ x ∈ [a, b], x ∈ pool := fun x hx => List.mem_mergeSort.mp (hab.subset hx)
  have hsorted := (List.pairwise_mergeSort htrans htotal pool).sublist hab
  have hne := (List.mergeSort_perm pool _).nodup_iff.mpr hnodup |>.sublist hab
  rw [List.pairwise_pair, decide_eq_true_iff] at hsorted
  rcases hsorted.lt_or_eq with hlt | heq
  · exact Or.inl hlt
  · refine Or.inr ⟨heq, ?_⟩
    by_contra hnot
    have hba : b < a := lt_of_le_of_ne (not_lt.mp hnot) fun he => by
      rw [he] at hne
      exact absurd hne (List.not_nodup_pair a)
    -- the sort would have left `b` before `a`
    refine not_sublist_swap ((List.mergeSort_perm pool _).nodup_iff.mpr hnodup) hab ?_
    refine List.pair_sublist_mergeSort htrans htotal (decide_eq_true heq.ge) ?_
    exact pair_sublist_of_lt hpool (hmem b (by simp)) (hmem a (by simp)) hba

end

end HyperMoE.Lib
