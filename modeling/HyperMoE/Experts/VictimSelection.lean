import HyperMoE.Experts.ExpertManager
import HyperMoE.Experts.PolicyHistory
import HyperMoE.Lib.Extended
import HyperMoE.Lib.Ranking

/-!
# The victim of a policy

The three `selectVictim` loops, with what they keep beside the victim and the values they start
from, and what they choose.

* `Comparison.scan`   the loop, for a rank and its two comparisons;
* `selectVictim`      the loop of each policy;
* `Victim`            an admissible candidate that no other one is before;
* `scan_eq`           where the comparisons are those of an order, the start value does not matter;
* `Chooses`           what a choice among some candidates comes to;
* `victims_chosen`    each of the three, after any history.
-/

namespace HyperMoE

open Lib

/-! ## the loops of the source -/

/-- the comparisons of two ranks, and what the loop keeps before its first victim -/
structure Comparison (κ : Type) where
  less : κ → κ → Bool
  same : κ → κ → Bool
  start : κ

section
variable {κ : Type} (c : Comparison κ) (rank : ExpertId → κ) (excluded : List ExpertId)

/-- one candidate; the victim so far goes with its rank -/
def scanStep (best : Option ExpertId × κ) (id : ExpertId) : Option ExpertId × κ :=
  if id ∈ excluded then best
  else match best with
    | (none, _) => (some id, rank id)
    | (some victim, least) =>
      if c.less (rank id) least ∨ (c.same (rank id) least ∧ id < victim) then (some id, rank id)
      else (some victim, least)

def Comparison.scan (candidates : List ExpertId) : Option ExpertId :=
  (candidates.foldl (scanStep c rank excluded) (none, c.start)).1

end

/-- `std::numeric_limits<std::uint64_t>::max()` -/
def maxStamp : Nat := 2 ^ 64 - 1

def stampComparison : Comparison Nat := ⟨fun a b => a < b, fun a b => a = b, maxStamp⟩

/-- the frequency, and then the stamp -/
def frequencyComparison : Comparison (Nat × Nat) where
  less a b := a.1 < b.1 ∨ (a.1 = b.1 ∧ a.2 < b.2)
  same a b := a.1 = b.1 ∧ a.2 = b.2
  start := (maxStamp, maxStamp)

def LruCachePolicy.selectVictim (p : LruCachePolicy) (candidates excluded : List ExpertId) :
    Option ExpertId :=
  stampComparison.scan p.stamp excluded candidates

def LFUPolicy.counters (p : LFUPolicy) (id : ExpertId) : Nat × Nat :=
  ((p.frequency.lookup id).getD 0, (p.lastAccess.lookup id).getD 0)

def LFUPolicy.selectVictim (p : LFUPolicy) (candidates excluded : List ExpertId) :
    Option ExpertId :=
  frequencyComparison.scan p.counters excluded candidates

section
variable {S : Type} [LinearOrder S]

def scoreComparison : Comparison (Extended S) :=
  ⟨Extended.less, Extended.same, .infinite false⟩

/-- the loop of `HybridPolicy` over the numbers that `score` returns -/
def selectByScore (score : ExpertId → Extended S) (candidates excluded : List ExpertId) :
    Option ExpertId :=
  scoreComparison.scan score excluded candidates

def HybridPolicy.selectVictim [Field S] (p : HybridPolicy S)
    (candidates excluded : List ExpertId) : Option ExpertId :=
  selectByScore (fun id => .finite (p.score id)) candidates excluded

end

/-! ## the first of the candidates -/

section
variable {κ : Type} [LinearOrder κ] {rank : ExpertId → κ} {candidates excluded : List ExpertId}
  {v w : ExpertId}

/-- by the rank, and by the id where it is equal -/
structure Victim (rank : ExpertId → κ) (candidates excluded : List ExpertId) (v : ExpertId) :
    Prop where
  offered : v ∈ candidates
  admissible : v ∉ excluded
  first : ∀ id ∈ candidates, id ∉ excluded → id ≠ v → keyed rank v id

theorem Victim.unique (h : Victim rank candidates excluded v)
    (h' : Victim rank candidates excluded w) : v = w := by
  have ranks : Ranks (keyed rank) candidates := ranks_keyed rank
  by_contra hne
  exact ranks.asymm
    (h.first w h'.offered h'.admissible (Ne.symm hne))
    (h'.first v h.offered h.admissible hne)

theorem Victim.of_perm {candidates' : List ExpertId} (hperm : candidates.Perm candidates')
    (h : Victim rank candidates excluded v) : Victim rank candidates' excluded v :=
  ⟨hperm.mem_iff.mp h.offered, h.admissible,
    fun id hid => h.first id (hperm.mem_iff.mpr hid)⟩

/-- what one round leaves is not after what there was, nor after the candidate -/
theorem selectStep_first (rank : ExpertId → κ) (excluded : List ExpertId)
    (start : Option ExpertId) (id : ExpertId) :
    (∀ u, start = some u → selectStep rank excluded start id = some u ∨
      ∃ x, selectStep rank excluded start id = some x ∧ keyed rank x u) ∧
    (id ∉ excluded → selectStep rank excluded start id = some id ∨
      ∃ x, selectStep rank excluded start id = some x ∧ keyed rank x id) := by
  unfold selectStep
  by_cases hex : id ∈ excluded
  · rw [if_pos hex]
    exact ⟨fun u hu => Or.inl hu, fun hin => absurd hex hin⟩
  rw [if_neg hex]
  cases start with
  | none => exact ⟨(fun u hu => nomatch hu), fun _ => Or.inl rfl⟩
  | some u =>
    dsimp only
    by_cases hbefore : rank id < rank u ∨ (rank id = rank u ∧ id < u)
    · rw [if_pos hbefore]
      refine ⟨fun u' hu => ?_, fun _ => Or.inl rfl⟩
      obtain rfl := Option.some.inj hu
      exact Or.inr ⟨id, rfl, hbefore⟩
    · rw [if_neg hbefore]
      refine ⟨fun u' hu => Or.inl hu, fun _ => ?_⟩
      by_cases hsame : u = id
      · exact Or.inl (congrArg some hsame)
      · have ranks : Ranks (keyed rank) [u, id] := ranks_keyed rank
        have htotal := ranks.total u (by simp) id (by simp) hsame
        exact Or.inr ⟨u, rfl, htotal.resolve_right hbefore⟩

theorem foldl_selectStep_first (cs : List ExpertId) (start : Option ExpertId)
    (h : cs.foldl (selectStep rank excluded) start = some v) :
    (∀ u, start = some u → u = v ∨ keyed rank v u) ∧
    ∀ id ∈ cs, id ∉ excluded → id = v ∨ keyed rank v id := by
  induction cs generalizing start with
  | nil =>
    refine ⟨fun u hu => Or.inl (Option.some.inj (hu.symm.trans h)), fun id hid => ?_⟩
    exact absurd hid List.not_mem_nil
  | cons id cs ih =>
    obtain ⟨hleft, hrest⟩ := ih _ h
    obtain ⟨hstart, hid⟩ := selectStep_first rank excluded start id
    -- the round's result is the victim, or the victim is before it
    have hthrough : ∀ u, (selectStep rank excluded start id = some u ∨
        ∃ x, selectStep rank excluded start id = some x ∧ keyed rank x u) →
        u = v ∨ keyed rank v u := by
      rintro u (hu | ⟨x, hx, hxu⟩)
      · exact hleft u hu
      · have ranks : Ranks (keyed rank) cs := ranks_keyed rank
        rcases hleft x hx with rfl | hvx
        · exact Or.inr hxu
        · exact Or.inr (ranks.trans _ _ _ hvx hxu)
    refine ⟨fun u hu => hthrough u (hstart u hu), fun id' hmem hadmissible => ?_⟩
    rcases List.mem_cons.mp hmem with rfl | hmem
    · exact hthrough id' (hid hadmissible)
    · exact hrest id' hmem hadmissible

theorem victim_of_selectMinimal (h : selectMinimal rank candidates excluded = some v) :
    Victim rank candidates excluded v := by
  obtain ⟨hoffered, hadmissible⟩ :=
    (selectMinimal_mem rank excluded candidates none v h).resolve_left (by simp)
  refine ⟨hoffered, hadmissible, fun id hid hin hne => ?_⟩
  exact ((foldl_selectStep_first candidates none h).2 id hid hin).resolve_left hne

/-- what a choice among the candidates comes to -/
structure Chooses (select : List ExpertId → Option ExpertId) (rank : ExpertId → κ)
    (candidates excluded : List ExpertId) : Prop where
  first : ∀ v, select candidates = some v ↔ Victim rank candidates excluded v
  total : (∃ v, select candidates = some v) ↔ ∃ id ∈ candidates, id ∉ excluded
  perm : ∀ candidates', candidates'.Perm candidates → select candidates' = select candidates

theorem selectMinimal_some (candidates : List ExpertId) (v : ExpertId) :
    selectMinimal rank candidates excluded = some v ↔ Victim rank candidates excluded v := by
  refine ⟨victim_of_selectMinimal, fun h => ?_⟩
  have hsome := selectMinimal_isSome rank excluded candidates none
    (Or.inr ⟨v, h.offered, h.admissible⟩)
  obtain ⟨w, hw⟩ := Option.ne_none_iff_exists'.mp hsome
  rw [h.unique (victim_of_selectMinimal hw)]
  exact hw

theorem selectMinimal_chooses (rank : ExpertId → κ) (candidates excluded : List ExpertId) :
    Chooses (selectMinimal rank · excluded) rank candidates excluded := by
  refine ⟨selectMinimal_some candidates, ?_, fun candidates' hperm => ?_⟩
  · constructor
    · rintro ⟨v, hv⟩
      exact ⟨v, (victim_of_selectMinimal hv).offered, (victim_of_selectMinimal hv).admissible⟩
    · rintro ⟨id, hid, hin⟩
      exact Option.ne_none_iff_exists'.mp
        (selectMinimal_isSome rank excluded candidates none (Or.inr ⟨id, hid, hin⟩))
  · refine Option.ext fun v => ?_
    rw [selectMinimal_some, selectMinimal_some]
    exact ⟨Victim.of_perm hperm, Victim.of_perm hperm.symm⟩

end

/-! ## the start value does not matter -/

section
variable {κ β : Type} [LinearOrder β] {c : Comparison κ} {value : κ → β} {ordered : κ → Prop}
  {rank : ExpertId → κ} {candidates excluded : List ExpertId}

/-- the comparisons are those of an order of values, for ranks of some kind -/
structure Comparison.Orders (c : Comparison κ) (value : κ → β) (ordered : κ → Prop) : Prop where
  less : ∀ a b, ordered a → ordered b → (c.less a b = true ↔ value a < value b)
  same : ∀ a b, ordered a → ordered b → (c.same a b = true ↔ value a = value b)

/-- beside the victim stands its rank -/
def Carries (rank : ExpertId → κ) (ordered : κ → Prop) (best : Option ExpertId × κ) : Prop :=
  ∀ v, best.1 = some v → best.2 = rank v ∧ ordered (rank v)

theorem scanStep_eq (ho : c.Orders value ordered) {best : Option ExpertId × κ} {id : ExpertId}
    (hbest : Carries rank ordered best) (hid : id ∉ excluded → ordered (rank id)) :
    (scanStep c rank excluded best id).1 =
      selectStep (fun id => value (rank id)) excluded best.1 id ∧
    Carries rank ordered (scanStep c rank excluded best id) := by
  unfold scanStep selectStep
  by_cases hex : id ∈ excluded
  · rw [if_pos hex, if_pos hex]
    exact ⟨rfl, hbest⟩
  rw [if_neg hex, if_neg hex]
  have hnew : Carries rank ordered (some id, rank id) := by
    intro v hv
    obtain rfl := Option.some.inj hv
    exact ⟨rfl, hid hex⟩
  obtain ⟨victim, least⟩ := best
  cases victim with
  | none => exact ⟨rfl, hnew⟩
  | some victim =>
    obtain ⟨hrank, hordered⟩ := hbest victim rfl
    obtain rfl : least = rank victim := hrank
    have hbefore : (c.less (rank id) (rank victim) = true ∨
        (c.same (rank id) (rank victim) = true ∧ id < victim)) ↔
        (value (rank id) < value (rank victim) ∨
          (value (rank id) = value (rank victim) ∧ id < victim)) := by
      rw [ho.less _ _ (hid hex) hordered, ho.same _ _ (hid hex) hordered]
    by_cases hb : value (rank id) < value (rank victim) ∨
        (value (rank id) = value (rank victim) ∧ id < victim)
    · dsimp only
      rw [if_pos (hbefore.mpr hb), if_pos hb]
      exact ⟨rfl, hnew⟩
    · dsimp only
      rw [if_neg (mt hbefore.mp hb), if_neg hb]
      exact ⟨rfl, hbest⟩

theorem scan_eq (ho : c.Orders value ordered)
    (hordered : ∀ id ∈ candidates, id ∉ excluded → ordered (rank id)) :
    c.scan rank excluded candidates =
      selectMinimal (fun id => value (rank id)) candidates excluded := by
  have hloop : ∀ (cs : List ExpertId) (best : Option ExpertId × κ),
      (∀ id ∈ cs, id ∉ excluded → ordered (rank id)) → Carries rank ordered best →
      (cs.foldl (scanStep c rank excluded) best).1 =
        cs.foldl (selectStep (fun id => value (rank id)) excluded) best.1 := by
    intro cs
    induction cs with
    | nil => exact fun _ _ _ => rfl
    | cons id cs ih =>
      intro best hcs hbest
      obtain ⟨hstep, hcarries⟩ := scanStep_eq ho hbest (hcs id List.mem_cons_self)
      rw [List.foldl_cons, List.foldl_cons, ← hstep]
      exact ih _ (fun id' hid' => hcs id' (List.mem_cons_of_mem _ hid')) hcarries
  exact hloop candidates _ hordered fun v hv => nomatch hv

theorem Comparison.Orders.chooses (ho : c.Orders value ordered)
    (hordered : ∀ id ∈ candidates, id ∉ excluded → ordered (rank id)) :
    Chooses (c.scan rank excluded) (fun id => value (rank id)) candidates excluded := by
  have hminimal := selectMinimal_chooses (fun id => value (rank id)) candidates excluded
  have hscan := scan_eq ho hordered
  refine ⟨fun v => ?_, ?_, fun candidates' hperm => ?_⟩
  · rw [hscan]
    exact hminimal.first v
  · rw [hscan]
    exact hminimal.total
  · have hordered' : ∀ id ∈ candidates', id ∉ excluded → ordered (rank id) :=
      fun id hid => hordered id (hperm.mem_iff.mp hid)
    rw [hscan, scan_eq ho hordered']
    exact hminimal.perm candidates' hperm

end

/-! ## the three policies -/

theorem stampComparison_orders : stampComparison.Orders (fun stamp => stamp) fun _ => True :=
  ⟨fun _ _ _ _ => decide_eq_true_iff, fun _ _ _ _ => decide_eq_true_iff⟩

theorem frequencyComparison_orders : frequencyComparison.Orders toLex fun _ => True := by
  refine ⟨fun a b _ _ => ?_, fun a b _ _ => ?_⟩
  · rw [Prod.Lex.toLex_lt_toLex]
    exact decide_eq_true_iff
  · rw [toLex_inj, Prod.ext_iff]
    exact decide_eq_true_iff

section
variable {S : Type} [Field S] [LinearOrder S]

theorem scoreComparison_orders :
    (scoreComparison (S := S)).Orders Extended.value fun x => x.isFinite = true := by
  refine ⟨fun a b ha hb => ?_, fun a b ha hb => ?_⟩
  all_goals
    cases a with
    | finite x =>
      cases b with
      | finite y => exact decide_eq_true_iff
      | infinite _ => cases hb
      | nan => cases hb
    | infinite _ => cases ha
    | nan => cases ha

/-- what each of the loops chooses after a history of calls -/
structure VictimsChosen (S : Type) [Field S] [LinearOrder S] (calls : List PolicyCall)
    (candidates excluded : List ExpertId) : Prop where
  lru : Chooses (LruCachePolicy.selectVictim (PolicyCall.after {} calls) · excluded)
    (fun id => (PolicyCall.lastStamp id calls).getD 0) candidates excluded
  lfu : Chooses (LFUPolicy.selectVictim (PolicyCall.after {} calls) · excluded)
    (fun id => toLex (PolicyCall.accesses id calls, (PolicyCall.lastStamp id calls).getD 0))
    candidates excluded
  hybrid : ∀ p : HybridPolicy S, Chooses ((PolicyCall.after p calls).selectVictim · excluded)
    (PolicyCall.after p calls).score candidates excluded
  /-- whatever rounding makes of the scores, as long as they are finite -/
  scores : ∀ score : ExpertId → Extended S,
    (∀ id ∈ candidates, id ∉ excluded → (score id).isFinite = true) →
    Chooses (selectByScore score · excluded) (fun id => (score id).value) candidates excluded

theorem selectByScore_chooses {score : ExpertId → Extended S} {candidates excluded : List ExpertId}
    (h : ∀ id ∈ candidates, id ∉ excluded → (score id).isFinite = true) :
    Chooses (selectByScore score · excluded) (fun id => (score id).value) candidates excluded :=
  scoreComparison_orders.chooses h

theorem victimsChosen (calls : List PolicyCall) (candidates excluded : List ExpertId) :
    VictimsChosen S calls candidates excluded := by
  refine ⟨?_, ?_, fun p => ?_, fun score h => selectByScore_chooses h⟩
  · have hstamp : (PolicyCall.after ({} : LruCachePolicy) calls).stamp =
        fun id => (PolicyCall.lastStamp id calls).getD 0 := by
      funext id
      exact congrArg (Option.getD · 0) ((PolicyCall.follows_lru calls).stamps id)
    rw [← hstamp]
    exact stampComparison_orders.chooses fun _ _ _ => trivial
  · have hcounters : (PolicyCall.after ({} : LFUPolicy) calls).counters =
        fun id => (PolicyCall.accesses id calls, (PolicyCall.lastStamp id calls).getD 0) := by
      funext id
      have hstamps := (PolicyCall.follows_after LFUPolicy.recency_apply (p := {}) rfl calls).stamps
      exact Prod.ext (LFUPolicy.frequency_after calls id) (congrArg (Option.getD · 0) (hstamps id))
    unfold LFUPolicy.selectVictim
    rw [hcounters]
    exact frequencyComparison_orders.chooses fun _ _ _ => trivial
  · exact selectByScore_chooses fun _ _ _ => rfl

/-- an expert that was never heard of goes first, and of two of them the one with the lower id -/
example : LruCachePolicy.selectVictim (PolicyCall.after {} [.onAccess 3]) [3, 9, 7] [] = some 7 := by
  decide

/-! ## evictions -/

/-- the order in which the table of experts is gone through does not matter to the victim -/
def EvictionsOrderFree (π : Type) [CachePolicy π] : Prop :=
  ∀ (s : ExpertManager π) (tier : MemoryTier) (pinned order : List ExpertId),
    order.Perm (s.candidatesLocked tier) →
    CachePolicy.selectVictim s.policy tier order pinned =
      CachePolicy.selectVictim s.policy tier (s.candidatesLocked tier) pinned

/-- the manager's policies are these loops -/
structure SelectsByScan (S : Type) [Field S] [LinearOrder S] : Prop where
  lru : ∀ (p : LruCachePolicy) tier candidates excluded,
    CachePolicy.selectVictim p tier candidates excluded = p.selectVictim candidates excluded
  lfu : ∀ (p : LFUPolicy) tier candidates excluded,
    CachePolicy.selectVictim p tier candidates excluded = p.selectVictim candidates excluded
  hybrid : ∀ (p : HybridPolicy S) tier candidates excluded,
    CachePolicy.selectVictim p tier candidates excluded = p.selectVictim candidates excluded

theorem selectsByScan : SelectsByScan S where
  lru p _ candidates excluded :=
    (scan_eq stampComparison_orders fun _ _ _ => trivial).symm
  lfu p _ candidates excluded :=
    (scan_eq frequencyComparison_orders fun _ _ _ => trivial).symm
  hybrid p _ candidates excluded := by
    have hscan : scoreComparison.scan (fun id => .finite (p.score id)) excluded candidates =
        selectMinimal p.score candidates excluded :=
      scan_eq scoreComparison_orders fun _ _ _ => rfl
    exact hscan.symm

theorem evictionsOrderFree {π κ : Type} [CachePolicy π] [LinearOrder κ] (rank : π → ExpertId → κ)
    (h : ∀ (p : π) tier candidates excluded,
      CachePolicy.selectVictim p tier candidates excluded =
        selectMinimal (rank p) candidates excluded) : EvictionsOrderFree π := by
  intro s tier pinned order hperm
  rw [h, h]
  exact (selectMinimal_chooses _ _ pinned).perm order hperm

theorem victims_chosen :
    (∀ calls candidates excluded, VictimsChosen S calls candidates excluded) ∧
    SelectsByScan S ∧ EvictionsOrderFree LruCachePolicy ∧ EvictionsOrderFree LFUPolicy ∧
    EvictionsOrderFree (HybridPolicy S) :=
  ⟨victimsChosen, selectsByScan, evictionsOrderFree LruCachePolicy.stamp fun _ _ _ _ => rfl,
    evictionsOrderFree LFUPolicy.rank fun _ _ _ _ => rfl,
    evictionsOrderFree HybridPolicy.score fun _ _ _ _ => rfl⟩

end

end HyperMoE
