import Mathlib.Data.Prod.Lex
import Mathlib.Algebra.Order.Field.Basic
import HyperMoE.Lib.Numerals
import HyperMoE.Lib.Table
import HyperMoE.Memory.Tier

/-!
# Cache policies

`cache_policy.hpp` and the three policies behind it.  Their `selectVictim` loops are one loop,
`selectMinimal`, over three ranks: the last-access stamp (`LruCachePolicy`), frequency then stamp
(`LFUPolicy`), the residency score (`HybridPolicy`).

* `CachePolicy`         the interface the expert manager calls;
* `SelectsOffered`      a victim is one of the offered candidates;
* `LawfulCachePolicy`   what the callers rely on: a victim is moreover not excluded, and one is
                        found whenever there is one;
* `selectMinimal_*`     the loop has these three properties for every rank.
-/

namespace HyperMoE

open Lib Lib.Numerals

class CachePolicy (π : Type) where
  onAccess : ExpertId → π → π
  onResident : ExpertId → MemoryTier → π → π
  onEvict : ExpertId → MemoryTier → π → π
  setLayerProbability : ExpertId → ℚ → π → π := fun _ _ p => p
  setPrefetchConfidence : ExpertId → ℚ → π → π := fun _ _ p => p
  selectVictim : π → MemoryTier → List ExpertId → List ExpertId → Option ExpertId

class SelectsOffered (π : Type) [CachePolicy π] : Prop where
  offered : ∀ (p : π) tier candidates excluded v,
    CachePolicy.selectVictim p tier candidates excluded = some v → v ∈ candidates

class LawfulCachePolicy (π : Type) [CachePolicy π] : Prop extends SelectsOffered π where
  notExcluded : ∀ (p : π) tier candidates excluded v,
    CachePolicy.selectVictim p tier candidates excluded = some v → v ∉ excluded
  total : ∀ (p : π) tier candidates excluded v, v ∈ candidates → v ∉ excluded →
    CachePolicy.selectVictim p tier candidates excluded ≠ none

/-! ## the selection loop -/

section
variable {κ : Type} [LT κ] [DecidableLT κ] [DecidableEq κ]

/-- one round: `victim` is the best candidate so far -/
def selectStep (rank : ExpertId → κ) (excluded : List ExpertId) (victim : Option ExpertId)
    (id : ExpertId) : Option ExpertId :=
  if id ∈ excluded then victim
  else match victim with
    | none => some id
    | some v => if rank id < rank v ∨ (rank id = rank v ∧ id < v) then some id else some v

def selectMinimal (rank : ExpertId → κ) (candidates excluded : List ExpertId) :
    Option ExpertId :=
  candidates.foldl (selectStep rank excluded) none

variable (rank : ExpertId → κ) (excluded : List ExpertId)

theorem selectStep_cases (victim : Option ExpertId) (id : ExpertId) :
    selectStep rank excluded victim id = victim ∨
    (id ∉ excluded ∧ selectStep rank excluded victim id = some id) := by
  unfold selectStep
  by_cases h : id ∈ excluded
  · exact .inl (if_pos h)
  · rw [if_neg h]
    cases victim with
    | none => exact .inr ⟨h, rfl⟩
    | some v =>
      by_cases hb : rank id < rank v ∨ (rank id = rank v ∧ id < v)
      · exact .inr ⟨h, if_pos hb⟩
      · exact .inl (if_neg hb)

/-- the loop ends with its start value or with an admissible candidate -/
theorem selectMinimal_mem (cs : List ExpertId) (start : Option ExpertId) (v : ExpertId)
    (h : cs.foldl (selectStep rank excluded) start = some v) :
    start = some v ∨ (v ∈ cs ∧ v ∉ excluded) := by
  induction cs generalizing start with
  | nil => exact .inl h
  | cons id cs ih =>
    rcases ih _ h with e | ⟨hm, hx⟩
    · rcases selectStep_cases rank excluded start id with e' | ⟨hx, e'⟩
      · exact .inl (e' ▸ e)
      · obtain rfl := Option.some.inj (e'.symm.trans e)
        exact .inr ⟨List.mem_cons_self, hx⟩
    · exact .inr ⟨List.mem_cons_of_mem _ hm, hx⟩

theorem selectStep_isSome {victim : Option ExpertId} (h : victim ≠ none) (id : ExpertId) :
    selectStep rank excluded victim id ≠ none := by
  rcases selectStep_cases rank excluded victim id with e | ⟨-, e⟩
  · rwa [e]
  · simp [e]

theorem selectMinimal_isSome (cs : List ExpertId) (start : Option ExpertId)
    (h : start ≠ none ∨ ∃ v ∈ cs, v ∉ excluded) :
    cs.foldl (selectStep rank excluded) start ≠ none := by
  induction cs generalizing start with
  | nil => simpa using h
  | cons id cs ih =>
    apply ih
    rcases h with h | ⟨v, hv, hx⟩
    · exact .inl (selectStep_isSome rank excluded h id)
    · rcases List.mem_cons.mp hv with rfl | hm
      · left
        unfold selectStep
        rw [if_neg hx]
        cases start with
        | none => simp
        | some w =>
          show (if _ then some v else some w) ≠ none
          split <;> simp
      · exact .inr ⟨v, hm, hx⟩

end

/-! ## least recently used -/

structure LruCachePolicy where
  clock : Nat := 0
  lastAccess : Table ExpertId Nat := ∅
  deriving DecidableEq

namespace LruCachePolicy

def stamp (p : LruCachePolicy) (id : ExpertId) : Nat := (p.lastAccess.lookup id).getD 0

def onAccess (id : ExpertId) (p : LruCachePolicy) : LruCachePolicy :=
  ⟨p.clock + 1, p.lastAccess.insert id (p.clock + 1)⟩

def onResident (id : ExpertId) (p : LruCachePolicy) : LruCachePolicy :=
  if (p.lastAccess.lookup id).isSome then p
  else ⟨p.clock + 1, p.lastAccess.insert id (p.clock + 1)⟩

instance : CachePolicy LruCachePolicy where
  onAccess := onAccess
  onResident id _ := onResident id
  onEvict _ _ p := p
  selectVictim p _ candidates excluded := selectMinimal p.stamp candidates excluded

end LruCachePolicy

/-! ## least frequently used -/

structure LFUPolicy where
  clock : Nat := 0
  frequency : Table ExpertId Nat := ∅
  lastAccess : Table ExpertId Nat := ∅
  deriving DecidableEq

namespace LFUPolicy

/-- compared lexicographically: frequency first, then the stamp -/
def rank (p : LFUPolicy) (id : ExpertId) : Nat ×ₗ Nat :=
  toLex ((p.frequency.lookup id).getD 0, (p.lastAccess.lookup id).getD 0)

def onAccess (id : ExpertId) (p : LFUPolicy) : LFUPolicy :=
  ⟨p.clock + 1, p.frequency.insert id ((p.frequency.lookup id).getD 0 + 1),
    p.lastAccess.insert id (p.clock + 1)⟩

def onResident (id : ExpertId) (p : LFUPolicy) : LFUPolicy :=
  let frequency := if (p.frequency.lookup id).isSome then p.frequency else p.frequency.insert id 0
  if (p.lastAccess.lookup id).isSome then { p with frequency := frequency }
  else ⟨p.clock + 1, frequency, p.lastAccess.insert id (p.clock + 1)⟩

instance : CachePolicy LFUPolicy where
  onAccess := onAccess
  onResident id _ := onResident id
  onEvict _ _ p := p
  selectVictim p _ candidates excluded := selectMinimal p.rank candidates excluded

end LFUPolicy

/-! ## the hybrid residency score -/

section
variable (S : Type) [Field S] [LinearOrder S]

/-- the scores live in an ordered field `S`; `exp2` is the source's `std::exp2` on it -/
structure HybridPolicy where
  exp2 : S → S
  ageAware : Bool := false
  observationWindow : Nat := 4096
  clock : Nat := 0
  maximumFrequency : Nat := 0
  decayedFrequency : Table ExpertId S := ∅
  predictionUpdated : Table ExpertId Nat := ∅
  frequency : Table ExpertId Nat := ∅
  lastAccess : Table ExpertId Nat := ∅
  layerProbability : Table ExpertId S := ∅
  prefetchConfidence : Table ExpertId S := ∅

end

namespace HybridPolicy

variable {S : Type} [Field S] [LinearOrder S]

/-- `2 ^ (-age / observationWindow)` -/
def decay (p : HybridPolicy S) (age : Nat) : S :=
  p.exp2 (-(age : S) / (p.observationWindow : S))

def onAccess (id : ExpertId) (p : HybridPolicy S) : HybridPolicy S :=
  let age := match p.lastAccess.lookup id with
    | none => 0
    | some previous => p.clock + 1 - previous
  let decayed := (p.decayedFrequency.lookup id).getD 0 * p.decay age + 1
  let value := (p.frequency.lookup id).getD 0 + 1
  { p with
    clock := p.clock + 1
    maximumFrequency := max p.maximumFrequency value
    decayedFrequency :=
      if p.ageAware then p.decayedFrequency.insert id decayed else p.decayedFrequency
    frequency := p.frequency.insert id value
    lastAccess := p.lastAccess.insert id (p.clock + 1) }

def onResident (id : ExpertId) (p : HybridPolicy S) : HybridPolicy S :=
  let frequency := if (p.frequency.lookup id).isSome then p.frequency else p.frequency.insert id 0
  if (p.lastAccess.lookup id).isSome then { p with frequency := frequency }
  else { p with
    clock := p.clock + 1
    frequency := frequency
    lastAccess := p.lastAccess.insert id (p.clock + 1) }

/-- `std::clamp(value, 0.0, 1.0)` -/
def clamp01 (value : ℚ) : ℚ := max 0 (min value 1)

def setLayerProbability (id : ExpertId) (probability : ℚ) (p : HybridPolicy S) : HybridPolicy S :=
  { p with
    layerProbability := p.layerProbability.insert id (clamp01 probability : S)
    predictionUpdated := p.predictionUpdated.insert id p.clock }

def setPrefetchConfidence (id : ExpertId) (confidence : ℚ) (p : HybridPolicy S) :
    HybridPolicy S :=
  { p with
    prefetchConfidence := p.prefetchConfidence.insert id (clamp01 confidence : S)
    predictionUpdated := p.predictionUpdated.insert id p.clock }

def normalizedFrequency (p : HybridPolicy S) (id : ExpertId) : S :=
  if p.maximumFrequency = 0 then 0
  else match p.frequency.lookup id with
    | none => 0
    | some f => (f : S) / (p.maximumFrequency : S)

def normalizedRecency (p : HybridPolicy S) (id : ExpertId) : S :=
  if p.clock = 0 then 0
  else match p.lastAccess.lookup id with
    | none => 0
    | some stamp => (stamp : S) / (p.clock : S)

def lookupOrZero (values : Table ExpertId S) (id : ExpertId) : S := (values.lookup id).getD 0

def score (p : HybridPolicy S) (id : ExpertId) : S :=
  if p.ageAware then
    let recency : S := match p.lastAccess.lookup id, p.decayedFrequency.lookup id with
      | some access, some _ => p.decay (p.clock - access)
      | _, _ => 0
    let frequency : S := match p.decayedFrequency.lookup id with
      | none => 0
      | some count => count * recency
    let predictionDecay : S := match p.predictionUpdated.lookup id with
      | none => 0
      | some updated => p.decay (p.clock - updated)
    4 / 10 * frequency / (frequency + 8) + 3 / 10 * recency +
      3 / 10 * lookupOrZero p.layerProbability id * lookupOrZero p.prefetchConfidence id *
        predictionDecay
  else
    4 / 10 * p.normalizedFrequency id + 3 / 10 * p.normalizedRecency id +
      2 / 10 * lookupOrZero p.layerProbability id +
      1 / 10 * lookupOrZero p.prefetchConfidence id

instance : CachePolicy (HybridPolicy S) where
  onAccess := onAccess
  onResident id _ := onResident id
  onEvict _ _ p := p
  setLayerProbability := setLayerProbability
  setPrefetchConfidence := setPrefetchConfidence
  selectVictim p _ candidates excluded := selectMinimal p.score candidates excluded

end HybridPolicy

/-! ## all three are lawful -/

theorem lawful_of_selectMinimal {π κ : Type} [LT κ] [DecidableLT κ] [DecidableEq κ]
    [CachePolicy π] (rank : π → ExpertId → κ)
    (h : ∀ (p : π) tier cs excluded,
      CachePolicy.selectVictim p tier cs excluded = selectMinimal (rank p) cs excluded) :
    LawfulCachePolicy π where
  offered p tier cs excluded v hv := by
    rw [h] at hv
    rcases selectMinimal_mem _ _ _ _ _ hv with e | ⟨hm, -⟩
    · cases e
    · exact hm
  notExcluded p tier cs excluded v hv := by
    rw [h] at hv
    rcases selectMinimal_mem _ _ _ _ _ hv with e | ⟨-, hx⟩
    · cases e
    · exact hx
  total p tier cs excluded v hm hx := by
    rw [h]
    exact selectMinimal_isSome _ _ _ _ (.inr ⟨v, hm, hx⟩)

instance : LawfulCachePolicy LruCachePolicy :=
  lawful_of_selectMinimal LruCachePolicy.stamp fun _ _ _ _ => rfl

instance : LawfulCachePolicy LFUPolicy :=
  lawful_of_selectMinimal LFUPolicy.rank fun _ _ _ _ => rfl

instance {S : Type} [Field S] [LinearOrder S] : LawfulCachePolicy (HybridPolicy S) :=
  lawful_of_selectMinimal HybridPolicy.score fun _ _ _ _ => rfl

end HyperMoE
