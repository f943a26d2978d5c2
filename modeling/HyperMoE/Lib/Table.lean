import Mathlib.Data.List.AList
import Mathlib.Algebra.Order.BigOperators.Group.List
import Mathlib.Tactic.Ring

/-!
# Finite tables

A hash table is an association list without repeated keys (`AList` of Mathlib), with the value
type not depending on the key.

* `Table.lookup_insert'`, `lookup_erase'`   one equation for a key that may or may not be the
                                            changed one;
* `Table.adjust`, `Table.tally`             a table with a default value, and counting in it;
* `Table.total f t`                         the sum of `f` over the values, and what `insert` and
                                            `erase` do to it;
* `Table.count p t`                         how many values satisfy `p`, as such a sum;
* `Table.Replaced`                          either of them, as one change of one entry.
-/

namespace HyperMoE.Lib

abbrev Table (κ υ : Type) [DecidableEq κ] := AList (fun _ : κ => υ)

namespace Table

variable {κ υ : Type} [DecidableEq κ]

theorem lookup_insert' (a k : κ) (v : υ) (t : Table κ υ) :
    (t.insert k v).lookup a = if a = k then some v else t.lookup a := by
  split
  · next h => rw [h, AList.lookup_insert]
  · next h => rw [AList.lookup_insert_ne h]

theorem lookup_erase' (a k : κ) (t : Table κ υ) :
    (t.erase k).lookup a = if a = k then none else t.lookup a := by
  split
  · next h => rw [h, AList.lookup_erase]
  · next h => rw [AList.lookup_erase_ne h]

theorem mem_entries_iff {t : Table κ υ} {k : κ} {v : υ} :
    (⟨k, v⟩ : Sigma fun _ : κ => υ) ∈ t.entries ↔ t.lookup k = some v :=
  AList.mem_lookup_iff.symm

theorem mem_keys_of_lookup {t : Table κ υ} {k : κ} {v : υ} (h : t.lookup k = some v) :
    k ∈ t.keys := by
  rw [← AList.mem_keys, ← AList.lookup_isSome, h]
  rfl

/-- the values of the table -/
def values (t : Table κ υ) : List υ := t.entries.map Sigma.snd

theorem mem_values {t : Table κ υ} {v : υ} : v ∈ values t ↔ ∃ k, t.lookup k = some v := by
  unfold values
  rw [List.mem_map]
  constructor
  · rintro ⟨⟨k, w⟩, hm, rfl⟩
    exact ⟨k, mem_entries_iff.mp hm⟩
  · rintro ⟨k, hk⟩
    exact ⟨⟨k, v⟩, mem_entries_iff.mpr hk, rfl⟩

theorem values_insert (k : κ) (v : υ) (t : Table κ υ) :
    values (t.insert k v) = v :: values (t.erase k) := by
  unfold values
  rw [AList.entries_insert]
  rfl

theorem values_perm {k : κ} {v : υ} {t : Table κ υ} (h : t.lookup k = some v) :
    (values t).Perm (v :: values (t.erase k)) := by
  have hperm : t.entries.Perm ((⟨k, v⟩ : Sigma fun _ : κ => υ) :: t.entries.kerase k) := by
    obtain ⟨w, before, after, -, hentries, herase⟩ := List.exists_of_kerase (mem_keys_of_lookup h)
    have hw : w = v := by
      have hm : (⟨k, w⟩ : Sigma fun _ : κ => υ) ∈ t.entries := by
        rw [hentries]
        simp
      exact Option.some.inj ((mem_entries_iff.mp hm).symm.trans h)
    rw [herase, hentries, hw]
    exact List.perm_middle
  exact hperm.map Sigma.snd

theorem values_erase_of_none {k : κ} {t : Table κ υ} (h : t.lookup k = none) :
    values (t.erase k) = values t := by
  unfold values
  exact congrArg _ (List.kerase_of_notMem_keys (AList.lookup_eq_none.mp h))

/-! ## values with a default -/

/-- `t[k] = f(t[k])`, where a missing entry is made with the value `default` first -/
def adjust (f : υ → υ) (default : υ) (k : κ) (t : Table κ υ) : Table κ υ :=
  t.insert k (f ((t.lookup k).getD default))

theorem lookup_adjust (f : υ → υ) (default : υ) (a k : κ) (t : Table κ υ) :
    (adjust f default k t).lookup a =
      if a = k then some (f ((t.lookup k).getD default)) else t.lookup a :=
  lookup_insert' a k _ t

/-- how often each key was counted: the table `t` after `++t[k]` for each of the keys -/
def tally (keys : List κ) (t : Table κ Nat) : Table κ Nat :=
  keys.foldl (fun t k => adjust (· + 1) 0 k t) t

theorem getD_tally (a : κ) (keys : List κ) (t : Table κ Nat) :
    ((tally keys t).lookup a).getD 0 = (t.lookup a).getD 0 + keys.count a := by
  induction keys generalizing t with
  | nil => rfl
  | cons k keys ih =>
    show ((tally keys (adjust (· + 1) 0 k t)).lookup a).getD 0 = _
    rw [ih, lookup_adjust, List.count_cons]
    by_cases h : a = k
    · subst h
      simp only [reduceIte, Option.getD_some, beq_self_eq_true]
      omega
    · simp [h, Ne.symm h]

theorem isSome_tally (a : κ) (keys : List κ) (t : Table κ Nat) :
    ((tally keys t).lookup a).isSome ↔ (t.lookup a).isSome ∨ a ∈ keys := by
  induction keys generalizing t with
  | nil => simp [tally]
  | cons k keys ih =>
    show ((tally keys (adjust (· + 1) 0 k t)).lookup a).isSome ↔ _
    rw [ih, lookup_adjust, List.mem_cons]
    by_cases h : a = k
    · simp [h]
    · simp [h]

/-! ## sums over the values -/

def total (f : υ → Nat) (t : Table κ υ) : Nat := (t.entries.map fun e => f e.2).sum

@[simp] theorem total_empty (f : υ → Nat) : total f (∅ : Table κ υ) = 0 := rfl

theorem total_eq (f : υ → Nat) (t : Table κ υ) : total f t = ((values t).map f).sum := by
  unfold total values
  rw [List.map_map]
  rfl

theorem total_erase (f : υ → Nat) {k : κ} {v : υ} {t : Table κ υ} (h : t.lookup k = some v) :
    total f (t.erase k) + f v = total f t := by
  rw [total_eq f t, ((values_perm h).map f).sum_eq, List.map_cons, List.sum_cons, ← total_eq,
    Nat.add_comm]

/-- overwriting a value exchanges its summand -/
theorem total_insert (f : υ → Nat) {k : κ} {v w : υ} {t : Table κ υ} (h : t.lookup k = some v) :
    total f (t.insert k w) + f v = total f t + f w := by
  rw [total_eq f (t.insert k w), values_insert, List.map_cons, List.sum_cons, ← total_eq,
    Nat.add_assoc, total_erase f h, Nat.add_comm]

theorem total_insert_new (f : υ → Nat) {k : κ} {w : υ} {t : Table κ υ} (h : t.lookup k = none) :
    total f (t.insert k w) = total f t + f w := by
  unfold total
  rw [AList.entries_insert_of_notMem (AList.lookup_eq_none.mp h), List.map_cons, List.sum_cons,
    Nat.add_comm]

theorem le_total (f : υ → Nat) {k : κ} {v : υ} {t : Table κ υ} (h : t.lookup k = some v) :
    f v ≤ total f t := by
  rw [← total_erase f h]
  exact Nat.le_add_left _ _

theorem total_eq_zero (f : υ → Nat) {t : Table κ υ} (h : ∀ k v, t.lookup k = some v → f v = 0) :
    total f t = 0 := by
  unfold total
  apply List.sum_eq_zero
  intro n hn
  obtain ⟨⟨k, v⟩, hm, rfl⟩ := List.mem_map.mp hn
  exact h k v (mem_entries_iff.mp hm)

theorem total_congr {f g : υ → Nat} {t : Table κ υ} (h : ∀ k v, t.lookup k = some v → f v = g v) :
    total f t = total g t := by
  unfold total
  refine congrArg List.sum (List.map_congr_left ?_)
  rintro ⟨k, v⟩ hm
  exact h k v (mem_entries_iff.mp hm)

theorem total_mono {f g : υ → Nat} {t : Table κ υ} (h : ∀ k v, t.lookup k = some v → f v ≤ g v) :
    total f t ≤ total g t := by
  unfold total
  refine List.sum_le_sum ?_
  rintro ⟨k, v⟩ hm
  exact h k v (mem_entries_iff.mp hm)

/-- the same sum, by way of a list of the keys -/
theorem sum_of_keys (f : υ → Nat) {t : Table κ υ} {keys : List κ} (hnodup : keys.Nodup)
    (hkeys : ∀ k, k ∈ keys ↔ k ∈ t) :
    (keys.map fun k => (t.lookup k).elim 0 f).sum = total f t := by
  have hperm : keys.Perm t.keys := (List.perm_ext_iff_of_nodup hnodup t.keys_nodup).mpr fun k =>
    (hkeys k).trans AList.mem_keys
  rw [(hperm.map _).sum_eq]
  unfold total
  show ((t.entries.map Sigma.fst).map _).sum = _
  rw [List.map_map]
  refine congrArg List.sum (List.map_congr_left ?_)
  rintro ⟨k, v⟩ hm
  show (t.lookup k).elim 0 f = f v
  rw [mem_entries_iff.mp hm]
  rfl

/-- how many values satisfy `p` -/
def count (p : υ → Bool) (t : Table κ υ) : Nat := (values t).countP p

theorem count_eq_total (p : υ → Bool) (t : Table κ υ) :
    count p t = total (fun v => if p v then 1 else 0) t := by
  unfold count values total
  rw [List.countP_map]
  induction t.entries with
  | nil => rfl
  | cons e l ih =>
    rw [List.countP_cons, ih, List.map_cons, List.sum_cons, Nat.add_comm]
    rfl

/-! ## one entry replaced -/

/-- `t'` is `t` with the entry of `k` replaced: overwritten, entered or erased -/
structure Replaced (k : κ) (old new : Option υ) (t t' : Table κ υ) : Prop where
  found : t.lookup k = old
  lookup : ∀ a, t'.lookup a = if a = k then new else t.lookup a
  total : ∀ f : υ → Nat, Table.total f t' + old.elim 0 f = Table.total f t + new.elim 0 f

theorem Replaced.insert {k : κ} {old : Option υ} {w : υ} {t t' : Table κ υ}
    (h : t.lookup k = old) (ht : t' = t.insert k w) : Replaced k old (some w) t t' where
  found := h
  lookup a := by rw [ht, lookup_insert']
  total f := by
    rw [ht]
    cases old with
    | none => exact total_insert_new f h
    | some v => exact total_insert f h

theorem Replaced.erase {k : κ} {v : υ} {t t' : Table κ υ} (h : t.lookup k = some v)
    (ht : t' = t.erase k) : Replaced k (some v) none t t' where
  found := h
  lookup a := by rw [ht, lookup_erase']
  total f := by
    rw [ht]
    exact total_erase f h

end Table

end HyperMoE.Lib
