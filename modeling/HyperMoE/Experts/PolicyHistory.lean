import HyperMoE.Experts.CachePolicy

/-!
# Histories of policy calls

What the calls so far say about an expert, with no policy in between.  A history has its latest
call first.

* `PolicyCall`, `after`         a call, and the policy after a history of them;
* `clock`                       the clock that all three policies advance: by one for an access, and
                                for the first that is heard of an expert by its residency;
* `lastStamp`                   the clock at the last access, or at that first residency;
* `accessStamps`, `hintStamp`   the clock at each of the accesses, and at the last hint;
* `Follows`                     the clock and the stamps of a policy are those of a history;
* `follows_after`               they are, for each of the three policies.

The counters are `std::uint64_t` in the source; a history of `2 ^ 64` calls is out of reach.
-/

namespace HyperMoE

open Lib

inductive PolicyCall where
  | onAccess (id : ExpertId)
  | onResident (id : ExpertId) (tier : MemoryTier)
  | onEvict (id : ExpertId) (tier : MemoryTier)
  | setLayerProbability (id : ExpertId) (probability : ℚ)
  | setPrefetchConfidence (id : ExpertId) (confidence : ℚ)
  deriving DecidableEq

namespace PolicyCall

section
variable {π : Type} [CachePolicy π]

def apply : PolicyCall → π → π
  | onAccess id => CachePolicy.onAccess id
  | onResident id tier => CachePolicy.onResident id tier
  | onEvict id tier => CachePolicy.onEvict id tier
  | setLayerProbability id probability => CachePolicy.setLayerProbability id probability
  | setPrefetchConfidence id confidence => CachePolicy.setPrefetchConfidence id confidence

def after (p : π) (calls : List PolicyCall) : π := calls.foldr apply p

end

/-- it was accessed, or became resident -/
def known (id : ExpertId) : List PolicyCall → Bool
  | [] => false
  | onAccess i :: past => i = id || known id past
  | onResident i _ :: past => i = id || known id past
  | _ :: past => known id past

def clock : List PolicyCall → Nat
  | [] => 0
  | onAccess _ :: past => clock past + 1
  | onResident id _ :: past => if known id past then clock past else clock past + 1
  | _ :: past => clock past

def lastStamp (id : ExpertId) : List PolicyCall → Option Nat
  | [] => none
  | onAccess i :: past => if i = id then some (clock past + 1) else lastStamp id past
  | onResident i _ :: past =>
    if i = id ∧ known id past = false then some (clock past + 1) else lastStamp id past
  | _ :: past => lastStamp id past

def accesses (id : ExpertId) (calls : List PolicyCall) : Nat := calls.count (onAccess id)

/-- the latest first -/
def accessStamps (id : ExpertId) : List PolicyCall → List Nat
  | [] => []
  | onAccess i :: past =>
    if i = id then (clock past + 1) :: accessStamps id past else accessStamps id past
  | _ :: past => accessStamps id past

def hintStamp (id : ExpertId) : List PolicyCall → Option Nat
  | [] => none
  | setLayerProbability i _ :: past => if i = id then some (clock past) else hintStamp id past
  | setPrefetchConfidence i _ :: past => if i = id then some (clock past) else hintStamp id past
  | _ :: past => hintStamp id past

def lastProbability (id : ExpertId) : List PolicyCall → Option ℚ
  | [] => none
  | setLayerProbability i probability :: past =>
    if i = id then some probability else lastProbability id past
  | _ :: past => lastProbability id past

def lastConfidence (id : ExpertId) : List PolicyCall → Option ℚ
  | [] => none
  | setPrefetchConfidence i confidence :: past =>
    if i = id then some confidence else lastConfidence id past
  | _ :: past => lastConfidence id past

/-! ## facts about histories -/

theorem isSome_lastStamp (id : ExpertId) (calls : List PolicyCall) :
    (lastStamp id calls).isSome = known id calls := by
  induction calls with
  | nil => rfl
  | cons call past ih =>
    cases call with
    | onAccess i => by_cases h : i = id <;> simp [lastStamp, known, h, ih]
    | onResident i tier =>
      by_cases h : i = id
      · cases hpast : known id past <;> simp [lastStamp, known, h, hpast, ih]
      · simp [lastStamp, known, h, ih]
    | _ => exact ih

theorem lastStamp_le {id : ExpertId} {calls : List PolicyCall} {stamp : Nat}
    (h : lastStamp id calls = some stamp) : stamp ≤ clock calls := by
  induction calls with
  | nil => cases h
  | cons call past ih =>
    cases call with
    | onAccess i =>
      unfold lastStamp at h
      unfold clock
      split at h
      · cases h
        exact Nat.le_refl _
      · exact Nat.le_succ_of_le (ih h)
    | onResident i tier =>
      unfold lastStamp at h
      unfold clock
      split at h
      next hi =>
        rw [hi.1, hi.2, if_neg Bool.false_ne_true]
        cases h
        exact Nat.le_refl _
      · have := ih h
        split <;> omega
    | _ => exact ih h

/-- an accessed expert was last stamped by its last access -/
theorem lastStamp_of_accessed {id : ExpertId} {calls : List PolicyCall} {stamp : Nat}
    (h : (accessStamps id calls).head? = some stamp) : lastStamp id calls = some stamp := by
  induction calls with
  | nil => cases h
  | cons call past ih =>
    cases call with
    | onAccess i =>
      unfold accessStamps at h
      unfold lastStamp
      by_cases hi : i = id
      · rwa [if_pos hi] at h ⊢
      · rw [if_neg hi] at h ⊢
        exact ih h
    | onResident i tier =>
      have hpast := ih h
      have hseen : known id past = true := by
        rw [← isSome_lastStamp, hpast]
        rfl
      have hnot : ¬ (i = id ∧ known id past = false) := fun hi => nomatch hseen.symm.trans hi.2
      unfold lastStamp
      rwa [if_neg hnot]
    | _ => exact ih h

/-! ## the three clocks -/

structure Follows (calls : List PolicyCall) (p : LruCachePolicy) : Prop where
  clock : p.clock = clock calls
  stamps : ∀ id, p.lastAccess.lookup id = lastStamp id calls

theorem Follows.onAccess {calls : List PolicyCall} {p : LruCachePolicy} (h : Follows calls p)
    (i : ExpertId) : Follows (.onAccess i :: calls) (p.onAccess i) := by
  refine ⟨congrArg (· + 1) h.clock, fun id => ?_⟩
  unfold LruCachePolicy.onAccess lastStamp
  rw [Table.lookup_insert', h.clock, h.stamps]
  exact if_congr eq_comm rfl rfl

theorem Follows.onResident {calls : List PolicyCall} {p : LruCachePolicy} (h : Follows calls p)
    (i : ExpertId) (tier : MemoryTier) :
    Follows (.onResident i tier :: calls) (p.onResident i) := by
  have hknown : (p.lastAccess.lookup i).isSome = known i calls := by
    rw [h.stamps, isSome_lastStamp]
  unfold LruCachePolicy.onResident
  cases hi : known i calls with
  | true =>
    rw [hknown, hi, if_pos rfl]
    refine ⟨?_, fun id => ?_⟩
    · unfold PolicyCall.clock
      rw [hi, if_pos rfl, h.clock]
    · have hnot : ¬ (i = id ∧ known id calls = false) := by
        rintro ⟨rfl, hunknown⟩
        exact nomatch hi.symm.trans hunknown
      unfold lastStamp
      rw [if_neg hnot, h.stamps]
  | false =>
    rw [hknown, hi, if_neg Bool.false_ne_true]
    refine ⟨?_, fun id => ?_⟩
    · unfold PolicyCall.clock
      rw [hi, if_neg Bool.false_ne_true, h.clock]
    · unfold lastStamp
      rw [Table.lookup_insert', h.clock, h.stamps]
      refine if_congr ⟨fun he => ?_, fun he => he.1.symm⟩ rfl rfl
      subst he
      exact ⟨rfl, hi⟩

theorem follows_lru (calls : List PolicyCall) : Follows calls (after {} calls) := by
  induction calls with
  | nil => exact ⟨rfl, fun _ => rfl⟩
  | cons call past ih =>
    cases call with
    | onAccess id => exact ih.onAccess id
    | onResident id tier => exact ih.onResident id tier
    | _ => exact ⟨ih.clock, ih.stamps⟩

/-- a policy whose calls do to its clock and its stamps what they do to the first policy -/
theorem follows_after {π : Type} [CachePolicy π] {recency : π → LruCachePolicy}
    (happly : ∀ (call : PolicyCall) p, recency (call.apply p) = call.apply (recency p)) {p : π}
    (hp : recency p = {}) (calls : List PolicyCall) : Follows calls (recency (after p calls)) := by
  have hafter : recency (after p calls) = after {} calls := by
    induction calls with
    | nil => exact hp
    | cons call past ih => exact (happly call _).trans (congrArg call.apply ih)
  exact hafter ▸ follows_lru calls

end PolicyCall

def LFUPolicy.recency (p : LFUPolicy) : LruCachePolicy := ⟨p.clock, p.lastAccess⟩

theorem LFUPolicy.recency_apply (call : PolicyCall) (p : LFUPolicy) :
    (call.apply p).recency = call.apply p.recency := by
  cases call with
  | onResident id tier =>
    show (p.onResident id).recency = p.recency.onResident id
    unfold LFUPolicy.onResident LruCachePolicy.onResident
    exact apply_ite LFUPolicy.recency _ _ _
  | _ => rfl

/-- a missing frequency counts as zero, which is what the residency writes -/
theorem LFUPolicy.frequency_onResident (p : LFUPolicy) (i id : ExpertId) :
    ((p.onResident i).frequency.lookup id).getD 0 = (p.frequency.lookup id).getD 0 := by
  have hwritten : ((p.onResident i).frequency.lookup id).getD 0 =
      ((if (p.frequency.lookup i).isSome then p.frequency
        else p.frequency.insert i 0).lookup id).getD 0 := by
    unfold LFUPolicy.onResident
    dsimp only
    split <;> rfl
  rw [hwritten]
  split
  · rfl
  next habsent =>
  rw [Table.lookup_insert']
  split
  next hid =>
    subst hid
    rw [Option.not_isSome_iff_eq_none.mp habsent]
    rfl
  · rfl

theorem LFUPolicy.frequency_after (calls : List PolicyCall) (id : ExpertId) :
    ((PolicyCall.after ({} : LFUPolicy) calls).frequency.lookup id).getD 0 =
      PolicyCall.accesses id calls := by
  induction calls with
  | nil => rfl
  | cons call past ih =>
    unfold PolicyCall.accesses at *
    cases call with
    | onAccess i =>
      show (((PolicyCall.after ({} : LFUPolicy) past).frequency.insert i _).lookup id).getD 0 = _
      rw [Table.lookup_insert', List.count_cons]
      by_cases hi : id = i
      · subst hi
        rw [if_pos rfl, beq_self_eq_true, if_pos rfl, ← ih]
        rfl
      · rw [if_neg hi, ih, if_neg (by simpa using Ne.symm hi)]
        rfl
    | onResident i tier =>
      rw [List.count_cons_of_ne (by simp), ← ih]
      exact LFUPolicy.frequency_onResident _ i id
    | _ =>
      rw [List.count_cons_of_ne (by simp), ← ih]
      rfl

namespace HybridPolicy

variable {S : Type} [Field S] [LinearOrder S]

/-- the constructor -/
def create (exp2 : S → S) (ageAware : Bool) (observationWindow : Nat) :
    Except Exn (HybridPolicy S) :=
  if observationWindow = 0 then
    .error (.invalidArgument "hybrid residency observation window must be nonzero")
  else .ok { exp2, ageAware, observationWindow }

def recency (p : HybridPolicy S) : LruCachePolicy := ⟨p.clock, p.lastAccess⟩

theorem recency_apply (call : PolicyCall) (p : HybridPolicy S) :
    (call.apply p).recency = call.apply p.recency := by
  cases call with
  | onResident id tier =>
    show (p.onResident id).recency = p.recency.onResident id
    unfold HybridPolicy.onResident LruCachePolicy.onResident
    exact apply_ite HybridPolicy.recency _ _ _
  | _ => rfl

end HybridPolicy

end HyperMoE
