import HyperMoE.Lib.Table

/-!
# Regrouping

A list of keyed values, dealt out one by one to groups; a hash table remembers where in the list of
groups the group of a key is.

* `Grouped.place`       one keyed value: the group of its key is made where there is none;
* `Grouped.WellPlaced`  the table and the groups agree;
* `place_entries`       nothing is dropped, doubled or put under another key;
* `Grouped.Follows`     each group holds the values of its key in the order of their placing.
-/

namespace HyperMoE.Lib

variable {κ γ α : Type}

/-- how a group is made, how it grows, and what it holds -/
structure GroupOps (κ γ α : Type) where
  fresh : κ → γ
  push : γ → α → γ
  key : γ → κ
  contents : γ → List α
  /-- the invariant of a group -/
  sound : γ → Prop
  sound_fresh : ∀ k, sound (fresh k)
  sound_push : ∀ g a, sound g → sound (push g a)
  key_fresh : ∀ k, key (fresh k) = k
  contents_fresh : ∀ k, contents (fresh k) = []
  key_push : ∀ g a, key (push g a) = key g
  contents_push : ∀ g a, sound g → contents (push g a) = contents g ++ [a]

namespace Grouped

variable (ops : GroupOps κ γ α)

/-- a group with the key in front of every value -/
def entries (g : γ) : List (κ × α) := (ops.contents g).map (Prod.mk (ops.key g))

variable {ops}

theorem entries_push {g : γ} (h : ops.sound g) (a : α) :
    entries ops (ops.push g a) = entries ops g ++ [(ops.key g, a)] := by
  unfold entries
  rw [ops.contents_push g a h, ops.key_push, List.map_append]
  rfl

theorem entries_fresh (k : κ) : entries ops (ops.fresh k) = [] := by
  unfold entries
  rw [ops.contents_fresh]
  rfl

theorem contents_push_ne_nil {g : γ} (h : ops.sound g) (a : α) :
    ops.contents (ops.push g a) ≠ [] := by
  rw [ops.contents_push g a h]
  exact List.append_ne_nil_of_right_ne_nil _ (List.cons_ne_nil _ _)

/-- a group that grows, among the others -/
theorem flatMap_modify {β : Type} (f : γ → List β) (u : γ → γ) (b : β) (gs : List γ) {p : Nat}
    (hp : p < gs.length) (hu : f (u gs[p]) = f gs[p] ++ [b]) :
    ((gs.modify p u).flatMap f).Perm (gs.flatMap f ++ [b]) := by
  rw [List.modify_eq_take_cons_drop hp, List.flatMap_append, List.flatMap_cons, hu]
  have hsplit : gs.flatMap f = (gs.take p).flatMap f ++ (f gs[p] ++ (gs.drop (p + 1)).flatMap f) := by
    rw [← List.flatMap_cons, ← List.flatMap_append, List.getElem_cons_drop, List.take_append_drop]
  rw [hsplit, List.append_assoc, List.append_assoc, List.append_assoc]
  exact (List.perm_append_comm.append_left _).append_left _

end Grouped

variable [DecidableEq κ]

structure Grouped (κ γ : Type) [DecidableEq κ] where
  positions : Table κ Nat := ∅
  groups : List γ := []

namespace Grouped

variable (ops : GroupOps κ γ α)

/-- `auto [found, inserted] = positions.emplace(k, groups.size());`
`if (inserted) groups.push_back(fresh(k));`
`groups[found->second].push(a);` -/
def place (s : Grouped κ γ) (k : κ) (a : α) : Grouped κ γ :=
  match s.positions.lookup k with
  | some p => { s with groups := s.groups.modify p (ops.push · a) }
  | none =>
    { positions := s.positions.insert k s.groups.length
      groups := (s.groups ++ [ops.fresh k]).modify s.groups.length (ops.push · a) }

structure WellPlaced (s : Grouped κ γ) : Prop where
  /-- the table points at the group of the key -/
  indexed : ∀ k p, s.positions.lookup k = some p ↔ (s.groups[p]?).map ops.key = some k
  /-- every group holds something -/
  filled : ∀ g ∈ s.groups, ops.contents g ≠ []
  sound : ∀ g ∈ s.groups, ops.sound g

variable {ops} {s : Grouped κ γ}

theorem wellPlaced_empty : WellPlaced ops ({} : Grouped κ γ) where
  indexed k p := by
    show (∅ : Table κ Nat).lookup k = some p ↔ _
    rw [AList.lookup_empty, List.getElem?_nil]
    exact ⟨fun h => (nomatch h), fun h => (nomatch h)⟩
  filled g hg := nomatch hg
  sound g hg := nomatch hg

/-- the groups have different keys -/
theorem WellPlaced.nodup (h : WellPlaced ops s) : (s.groups.map ops.key).Nodup := by
  rw [List.nodup_iff_getElem?_ne_getElem?]
  intro i j hij hj heq
  rw [List.length_map] at hj
  rw [List.getElem?_map, List.getElem?_map, List.getElem?_eq_getElem hj] at heq
  have hi := (h.indexed _ i).mpr heq
  have hj' := (h.indexed (ops.key s.groups[j]) j).mpr (by rw [List.getElem?_eq_getElem hj]; rfl)
  rw [hi] at hj'
  have := Option.some.inj hj'
  omega

theorem place_found {k : κ} {a : α} {p : Nat} (h : s.positions.lookup k = some p) :
    place ops s k a = { s with groups := s.groups.modify p (ops.push · a) } := by
  unfold place
  rw [h]

theorem place_fresh {k : κ} {a : α} (h : s.positions.lookup k = none) :
    place ops s k a =
      { positions := s.positions.insert k s.groups.length
        groups := s.groups ++ [ops.push (ops.fresh k) a] } := by
  unfold place
  rw [h]
  have hmodify : (s.groups ++ [ops.fresh k]).modify s.groups.length (ops.push · a) =
      s.groups ++ [ops.push (ops.fresh k) a] := by
    rw [List.modify_eq_take_cons_drop (by rw [List.length_append]; exact Nat.lt_succ_self _),
      List.take_left, List.getElem_concat_length rfl, List.drop_eq_nil_of_le
        (by rw [List.length_append]; exact Nat.le_refl _)]
  rw [hmodify]

/-! ## one step -/

theorem WellPlaced.place (h : WellPlaced ops s) (k : κ) (a : α) :
    WellPlaced ops (place ops s k a) := by
  cases hk : s.positions.lookup k with
  | some p =>
    rw [place_found hk]
    refine ⟨fun k' p' => ?_, fun g hg => ?_, fun g hg => ?_⟩
    · show s.positions.lookup k' = some p' ↔ _
      rw [h.indexed, List.getElem?_modify, Option.map_eq_map, Option.map_map]
      have hkey : (ops.key ∘ fun g => if p = p' then ops.push g a else g) = ops.key := by
        funext g
        show ops.key (if p = p' then ops.push g a else g) = ops.key g
        split
        · exact ops.key_push g a
        · rfl
      rw [hkey]
    · obtain ⟨i, hi, rfl⟩ := List.getElem_of_mem hg
      rw [List.getElem_modify]
      split
      · exact contents_push_ne_nil (h.sound _ (List.getElem_mem _)) a
      · exact h.filled _ (List.getElem_mem _)
    · obtain ⟨i, hi, rfl⟩ := List.getElem_of_mem hg
      rw [List.getElem_modify]
      split
      · exact ops.sound_push _ a (h.sound _ (List.getElem_mem _))
      · exact h.sound _ (List.getElem_mem _)
  | none =>
    rw [place_fresh hk]
    refine ⟨fun k' p' => ?_, fun g hg => ?_, fun g hg => ?_⟩
    · show (s.positions.insert k s.groups.length).lookup k' = some p' ↔ _
      rw [Table.lookup_insert', List.getElem?_append]
      split
      · next heq =>
        subst heq
        constructor
        · intro hp
          obtain rfl := Option.some.inj hp
          rw [if_neg (Nat.lt_irrefl _), Nat.sub_self]
          show some (ops.key (ops.push (ops.fresh k') a)) = some k'
          rw [ops.key_push, ops.key_fresh]
        · intro hp
          split at hp
          · have := (h.indexed k' p').mpr hp
            rw [hk] at this
            exact nomatch this
          · next hlt =>
            obtain ⟨n, rfl⟩ := Nat.exists_eq_add_of_le (Nat.le_of_not_lt hlt)
            rw [Nat.add_sub_cancel_left] at hp
            cases n with
            | zero => rfl
            | succ n => exact nomatch hp
      · next hne =>
        rw [h.indexed]
        split
        · rfl
        · next hlt =>
          rw [List.getElem?_eq_none (Nat.le_of_not_lt hlt)]
          constructor
          · intro hp
            exact nomatch hp
          · intro hp
            obtain ⟨n, rfl⟩ := Nat.exists_eq_add_of_le (Nat.le_of_not_lt hlt)
            rw [Nat.add_sub_cancel_left] at hp
            cases n with
            | zero =>
              have hkey : ops.key (ops.push (ops.fresh k) a) = k' := Option.some.inj hp
              rw [ops.key_push, ops.key_fresh] at hkey
              exact absurd hkey.symm hne
            | succ n => exact nomatch hp
    · rcases List.mem_append.mp hg with hg | hg
      · exact h.filled g hg
      · obtain rfl := List.mem_singleton.mp hg
        exact contents_push_ne_nil (ops.sound_fresh k) a
    · rcases List.mem_append.mp hg with hg | hg
      · exact h.sound g hg
      · obtain rfl := List.mem_singleton.mp hg
        exact ops.sound_push _ a (ops.sound_fresh k)

theorem place_entries (h : WellPlaced ops s) (k : κ) (a : α) :
    ((place ops s k a).groups.flatMap (entries ops)).Perm
      (s.groups.flatMap (entries ops) ++ [(k, a)]) := by
  cases hk : s.positions.lookup k with
  | some p =>
    rw [place_found hk]
    obtain ⟨g, hg, hkey⟩ := Option.map_eq_some_iff.mp ((h.indexed k p).mp hk)
    obtain ⟨hp, rfl⟩ := List.getElem?_eq_some_iff.mp hg
    refine flatMap_modify _ _ _ _ hp ?_
    rw [entries_push (h.sound _ (List.getElem_mem hp)), hkey]
  | none =>
    rw [place_fresh hk, List.flatMap_append, List.flatMap_singleton, entries_push (ops.sound_fresh k),
      entries_fresh, ops.key_fresh]
    exact List.Perm.refl _

/-! ## all of them -/

def placeAll (ops : GroupOps κ γ α) (s : Grouped κ γ) (pairs : List (κ × α)) : Grouped κ γ :=
  pairs.foldl (fun s p => place ops s p.1 p.2) s

theorem WellPlaced.placeAll (h : WellPlaced ops s) (pairs : List (κ × α)) :
    WellPlaced ops (placeAll ops s pairs) := by
  induction pairs generalizing s with
  | nil => exact h
  | cons p pairs ih => exact ih (h.place p.1 p.2)

theorem placeAll_entries (h : WellPlaced ops s) (pairs : List (κ × α)) :
    ((placeAll ops s pairs).groups.flatMap (entries ops)).Perm
      (s.groups.flatMap (entries ops) ++ pairs) := by
  induction pairs generalizing s with
  | nil =>
    rw [List.append_nil]
    exact List.Perm.refl _
  | cons p pairs ih =>
    refine (ih (h.place p.1 p.2)).trans ?_
    refine ((place_entries h p.1 p.2).append_right pairs).trans ?_
    rw [List.append_assoc]
    exact List.Perm.refl _

/-! ## the order within a group -/

structure Follows (ops : GroupOps κ γ α) (s : Grouped κ γ) (pairs : List (κ × α)) : Prop where
  contents : ∀ g ∈ s.groups,
    ops.contents g = (pairs.filter fun p => p.1 = ops.key g).map Prod.snd
  covered : ∀ p ∈ pairs, ∃ g ∈ s.groups, ops.key g = p.1

theorem follows_empty : Follows ops ({} : Grouped κ γ) [] where
  contents _ hg := nomatch hg
  covered _ hp := nomatch hp

theorem filter_append_of_eq {pairs : List (κ × α)} {k k' : κ} {a : α} (h : k = k') :
    ((pairs ++ [(k, a)]).filter fun p => p.1 = k').map Prod.snd =
      (pairs.filter fun p => p.1 = k').map Prod.snd ++ [a] := by
  simp [h]

theorem filter_append_of_ne {pairs : List (κ × α)} {k k' : κ} {a : α} (h : k ≠ k') :
    ((pairs ++ [(k, a)]).filter fun p => p.1 = k').map Prod.snd =
      (pairs.filter fun p => p.1 = k').map Prod.snd := by
  simp [h]

theorem Follows.place {pairs : List (κ × α)} (h : WellPlaced ops s) (hs : Follows ops s pairs)
    (k : κ) (a : α) : Follows ops (Grouped.place ops s k a) (pairs ++ [(k, a)]) := by
  cases hk : s.positions.lookup k with
  | some p =>
    obtain ⟨g, hg, hkey⟩ := Option.map_eq_some_iff.mp ((h.indexed k p).mp hk)
    obtain ⟨hp, rfl⟩ := List.getElem?_eq_some_iff.mp hg
    rw [place_found hk]
    constructor
    · intro g hg
      obtain ⟨i, hi, rfl⟩ := List.getElem_of_mem hg
      have hi' : i < s.groups.length := by rwa [List.length_modify] at hi
      rw [List.getElem_modify]
      by_cases hpi : p = i
      · subst hpi
        rw [if_pos rfl, ops.contents_push _ _ (h.sound _ (List.getElem_mem _)), ops.key_push,
          hs.contents _ (List.getElem_mem _), filter_append_of_eq hkey.symm]
      · have hne : k ≠ ops.key s.groups[i] := by
          intro he
          have hindex := (h.indexed k i).mpr (by rw [List.getElem?_eq_getElem hi', he]; rfl)
          exact hpi (Option.some.inj (hk.symm.trans hindex))
        rw [if_neg hpi, hs.contents _ (List.getElem_mem _), filter_append_of_ne hne]
    · intro q hq
      have hgroup : ∃ i, ∃ hi : i < s.groups.length, ops.key s.groups[i] = q.1 := by
        rcases List.mem_append.mp hq with hq | hq
        · obtain ⟨g, hg, hgkey⟩ := hs.covered q hq
          obtain ⟨i, hi, rfl⟩ := List.getElem_of_mem hg
          exact ⟨i, hi, hgkey⟩
        · rw [List.mem_singleton.mp hq]
          exact ⟨p, hp, hkey⟩
      obtain ⟨i, hi, hikey⟩ := hgroup
      have hi' : i < (s.groups.modify p (ops.push · a)).length := by rwa [List.length_modify]
      refine ⟨_, List.getElem_mem hi', ?_⟩
      rw [List.getElem_modify]
      split
      · rw [ops.key_push]
        exact hikey
      · exact hikey
  | none =>
    have hnew : ∀ g ∈ s.groups, ops.key g ≠ k := by
      rintro g hg rfl
      obtain ⟨i, hi, rfl⟩ := List.getElem_of_mem hg
      have hindex := (h.indexed _ i).mpr (by rw [List.getElem?_eq_getElem hi]; rfl)
      exact nomatch hk.symm.trans hindex
    rw [place_fresh hk]
    constructor
    · intro g hg
      rcases List.mem_append.mp hg with hg | hg
      · rw [filter_append_of_ne (hnew g hg).symm]
        exact hs.contents g hg
      · obtain rfl := List.mem_singleton.mp hg
        have hnone : pairs.filter (fun p => p.1 = k) = [] := by
          rw [List.filter_eq_nil_iff]
          intro q hq hqk
          obtain ⟨g, hg, hgkey⟩ := hs.covered q hq
          exact hnew g hg (hgkey.trans (of_decide_eq_true hqk))
        rw [ops.contents_push _ _ (ops.sound_fresh k), ops.contents_fresh, ops.key_push,
          ops.key_fresh, filter_append_of_eq rfl, hnone]
        rfl
    · intro q hq
      rcases List.mem_append.mp hq with hq | hq
      · obtain ⟨g, hg, hgkey⟩ := hs.covered q hq
        exact ⟨g, List.mem_append_left _ hg, hgkey⟩
      · refine ⟨_, List.mem_append_right _ List.mem_cons_self, ?_⟩
        rw [ops.key_push, ops.key_fresh, List.mem_singleton.mp hq]

theorem Follows.placeAll {placed : List (κ × α)} (h : WellPlaced ops s) (hs : Follows ops s placed)
    (pairs : List (κ × α)) : Follows ops (Grouped.placeAll ops s pairs) (placed ++ pairs) := by
  induction pairs generalizing s placed with
  | nil =>
    rw [List.append_nil]
    exact hs
  | cons p pairs ih =>
    have := ih (h.place p.1 p.2) (hs.place h p.1 p.2)
    rwa [List.append_assoc] at this

end Grouped

end HyperMoE.Lib
