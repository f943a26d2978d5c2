import Mathlib.Analysis.SpecialFunctions.Pow.Real
import HyperMoE.Experts.PolicyHistory

/-!
# The age-aware score

What `HybridPolicy::score` is worth after a history of calls, in exact real arithmetic.  The policy
keeps one faded count for an expert, rescaled at each access and again when it is read.

* `fading`            `2 ^ (-age / observationWindow)`;
* `popularity`        the sum of it over all accesses of the expert;
* `ageAwareScore`     the documented formula, read off the history;
* `Aged`              what the policy holds after the history;
* `score_closed_form` the score of the code is the formula, and lies in `[0, 1)`.
-/

namespace HyperMoE

open Lib Lib.Numerals PolicyCall

/-! ## the parts of the score -/

namespace HybridPolicy

variable {S : Type} [Field S]

def readRecency (p : HybridPolicy S) (id : ExpertId) : S :=
  match p.lastAccess.lookup id, p.decayedFrequency.lookup id with
  | some access, some _ => p.decay (p.clock - access)
  | _, _ => 0

def readFrequency (p : HybridPolicy S) (id : ExpertId) : S :=
  match p.decayedFrequency.lookup id with
  | none => 0
  | some count => count * p.readRecency id

def readPrediction (p : HybridPolicy S) (id : ExpertId) : S :=
  match p.predictionUpdated.lookup id with
  | none => 0
  | some updated => p.decay (p.clock - updated)

theorem score_eq {p : HybridPolicy S} (h : p.ageAware = true) (id : ExpertId) : p.score id =
    4 / 10 * p.readFrequency id / (p.readFrequency id + 8) + 3 / 10 * p.readRecency id +
      3 / 10 * lookupOrZero p.layerProbability id * lookupOrZero p.prefetchConfidence id *
        p.readPrediction id := by
  unfold score
  rw [if_pos h]
  rfl

end HybridPolicy

noncomputable section

/-! ## the formula -/

section
variable (observationWindow : Nat)

/-- what a stamp is worth at a later time -/
def fading (now stamp : Nat) : ℝ := 2 ^ (-((now : ℝ) - stamp) / observationWindow)

/-- nothing, without a stamp -/
def fadingOf (now : Nat) : Option Nat → ℝ
  | none => 0
  | some stamp => fading observationWindow now stamp

def popularity (calls : List PolicyCall) (id : ExpertId) : ℝ :=
  ((accessStamps id calls).map (fading observationWindow (clock calls))).sum

/-- the last value given, clamped -/
def hint (given : Option ℚ) : ℝ := (given.map fun value => (HybridPolicy.clamp01 value : ℝ)).getD 0

def ageAwareScore (calls : List PolicyCall) (id : ExpertId) : ℝ :=
  4 / 10 * popularity observationWindow calls id / (popularity observationWindow calls id + 8) +
    3 / 10 * fadingOf observationWindow (clock calls) (accessStamps id calls).head? +
    3 / 10 * hint (lastProbability id calls) * hint (lastConfidence id calls) *
      fadingOf observationWindow (clock calls) (hintStamp id calls)

end

/-! ## fading -/

variable {w : Nat}

theorem fading_self (now : Nat) : fading w now now = 1 := by
  unfold fading
  rw [sub_self, neg_zero, zero_div, Real.rpow_zero]

theorem fading_trans (earlier between now : Nat) :
    fading w between earlier * fading w now between = fading w now earlier := by
  unfold fading
  rw [← Real.rpow_add two_pos]
  congr 1
  ring

theorem fading_pos (now stamp : Nat) : 0 < fading w now stamp := Real.rpow_pos_of_pos two_pos _

theorem fading_le_one {now stamp : Nat} (h : stamp ≤ now) : fading w now stamp ≤ 1 := by
  have hage : (0 : ℝ) ≤ (now : ℝ) - stamp := sub_nonneg.mpr (Nat.cast_le.mpr h)
  refine Real.rpow_le_one_of_one_le_of_nonpos one_le_two ?_
  rw [neg_div]
  exact neg_nonpos.mpr (div_nonneg hage (Nat.cast_nonneg w))

theorem sum_fading_trans (stamps : List Nat) (between now : Nat) :
    (stamps.map (fading w between)).sum * fading w now between =
      (stamps.map (fading w now)).sum := by
  induction stamps with
  | nil => exact zero_mul _
  | cons stamp stamps ih =>
    rw [List.map_cons, List.map_cons, List.sum_cons, List.sum_cons, add_mul, ih, fading_trans]

/-! ## what the policy holds -/

structure Aged (w : Nat) (calls : List PolicyCall) (p : HybridPolicy ℝ) : Prop where
  exp2 : p.exp2 = fun x => 2 ^ x
  ageAware : p.ageAware = true
  window : p.observationWindow = w
  follows : Follows calls p.recency
  /-- the faded count, at the last access -/
  decayed : ∀ id, p.decayedFrequency.lookup id =
    (accessStamps id calls).head?.map fun stamp =>
      ((accessStamps id calls).map (fading w stamp)).sum
  updated : ∀ id, p.predictionUpdated.lookup id = hintStamp id calls
  probability : ∀ id, HybridPolicy.lookupOrZero p.layerProbability id = hint (lastProbability id calls)
  confidence : ∀ id, HybridPolicy.lookupOrZero p.prefetchConfidence id = hint (lastConfidence id calls)

variable {calls : List PolicyCall} {p : HybridPolicy ℝ}

theorem Aged.decay (h : Aged w calls p) {now stamp : Nat} (hle : stamp ≤ now) :
    p.decay (now - stamp) = fading w now stamp := by
  unfold HybridPolicy.decay fading
  rw [h.exp2, h.window, Nat.cast_sub hle]

/-- the age that an access rescales the count by -/
def accessAge (p : HybridPolicy ℝ) (id : ExpertId) : Nat :=
  match p.lastAccess.lookup id with
  | none => 0
  | some previous => p.clock + 1 - previous

theorem Aged.counted (h : Aged w calls p) (id : ExpertId) :
    (p.decayedFrequency.lookup id).getD 0 * p.decay (accessAge p id) + 1 =
      ((accessStamps id (.onAccess id :: calls)).map (fading w (clock calls + 1))).sum := by
  have hnew : accessStamps id (.onAccess id :: calls) = (clock calls + 1) :: accessStamps id calls :=
    if_pos rfl
  rw [hnew, List.map_cons, List.sum_cons, fading_self, add_comm, h.decayed]
  congr 1
  cases hstamps : accessStamps id calls with
  | nil => exact zero_mul _
  | cons stamp stamps =>
    have hlast : lastStamp id calls = some stamp := lastStamp_of_accessed (congrArg List.head? hstamps)
    have hage : accessAge p id = clock calls + 1 - stamp := by
      have hlookup : p.lastAccess.lookup id = some stamp := (h.follows.stamps id).trans hlast
      have hclock : p.clock = clock calls := h.follows.clock
      unfold accessAge
      rw [hlookup, hclock]
    rw [hage, h.decay (Nat.le_succ_of_le (lastStamp_le hlast))]
    exact sum_fading_trans (stamp :: stamps) stamp (clock calls + 1)

theorem Aged.onAccess (h : Aged w calls p) (i : ExpertId) :
    Aged w (.onAccess i :: calls) (p.onAccess i) := by
  refine ⟨h.exp2, h.ageAware, h.window, h.follows.onAccess i, fun id => ?_, h.updated,
    h.probability, h.confidence⟩
  have hwritten : (p.onAccess i).decayedFrequency = p.decayedFrequency.insert i
      ((p.decayedFrequency.lookup i).getD 0 * p.decay (accessAge p i) + 1) := if_pos h.ageAware
  rw [hwritten, Table.lookup_insert', h.counted]
  by_cases hi : id = i
  · subst hi
    have hnew : (accessStamps id (.onAccess id :: calls)).head? = some (clock calls + 1) := by
      unfold accessStamps
      rw [if_pos rfl]
      rfl
    rw [if_pos rfl, hnew]
    rfl
  · have hold : accessStamps id (.onAccess i :: calls) = accessStamps id calls :=
      if_neg (Ne.symm hi)
    rw [if_neg hi, hold, h.decayed]

/-- beside the clock and the stamps, a residency writes only the count that no age fades -/
theorem onResident_eq (p : HybridPolicy ℝ) (i : ExpertId) : ∃ clock frequency lastAccess,
    p.onResident i =
      { p with clock := clock, frequency := frequency, lastAccess := lastAccess } := by
  unfold HybridPolicy.onResident
  dsimp only
  split
  · exact ⟨p.clock, _, p.lastAccess, rfl⟩
  · exact ⟨_, _, _, rfl⟩

theorem Aged.onResident (h : Aged w calls p) (i : ExpertId) (tier : MemoryTier) :
    Aged w (.onResident i tier :: calls) (p.onResident i) := by
  have hrecency : (p.onResident i).recency = p.recency.onResident i :=
    HybridPolicy.recency_apply (.onResident i tier) p
  have hfollows := h.follows.onResident i tier
  rw [← hrecency] at hfollows
  obtain ⟨clock, frequency, lastAccess, hresult⟩ := onResident_eq p i
  rw [hresult] at hfollows ⊢
  exact ⟨h.exp2, h.ageAware, h.window, hfollows, h.decayed, h.updated, h.probability, h.confidence⟩

theorem lookupOrZero_insert (values : Table ExpertId ℝ) (i id : ExpertId) (value : ℝ) :
    HybridPolicy.lookupOrZero (values.insert i value) id =
      if i = id then value else HybridPolicy.lookupOrZero values id := by
  unfold HybridPolicy.lookupOrZero
  rw [Table.lookup_insert', apply_ite (Option.getD · 0)]
  exact if_congr eq_comm rfl rfl

theorem Aged.updatedHint (h : Aged w calls p) (i id : ExpertId) :
    (p.predictionUpdated.insert i p.clock).lookup id =
      if i = id then some (clock calls) else hintStamp id calls := by
  have hclock : p.clock = clock calls := h.follows.clock
  rw [Table.lookup_insert', hclock, h.updated]
  exact if_congr eq_comm rfl rfl

theorem hint_ite {c : Prop} [Decidable c] (value : ℚ) (given : Option ℚ) :
    hint (if c then some value else given) =
      if c then (HybridPolicy.clamp01 value : ℝ) else hint given := apply_ite hint c _ _

theorem Aged.setLayerProbability (h : Aged w calls p) (i : ExpertId) (value : ℚ) :
    Aged w (.setLayerProbability i value :: calls) (p.setLayerProbability i value) := by
  refine ⟨h.exp2, h.ageAware, h.window, ⟨h.follows.clock, h.follows.stamps⟩, h.decayed,
    h.updatedHint i, fun id => ?_, h.confidence⟩
  unfold lastProbability HybridPolicy.setLayerProbability
  rw [lookupOrZero_insert, hint_ite, h.probability]

theorem Aged.setPrefetchConfidence (h : Aged w calls p) (i : ExpertId) (value : ℚ) :
    Aged w (.setPrefetchConfidence i value :: calls) (p.setPrefetchConfidence i value) := by
  refine ⟨h.exp2, h.ageAware, h.window, ⟨h.follows.clock, h.follows.stamps⟩, h.decayed,
    h.updatedHint i, h.probability, fun id => ?_⟩
  unfold lastConfidence HybridPolicy.setPrefetchConfidence
  rw [lookupOrZero_insert, hint_ite, h.confidence]

theorem aged_create (hp : HybridPolicy.create (fun x : ℝ => 2 ^ x) true w = .ok p) : Aged w [] p := by
  unfold HybridPolicy.create at hp
  split at hp
  · cases hp
  obtain rfl := Except.ok.inj hp
  exact ⟨rfl, rfl, rfl, ⟨rfl, fun _ => rfl⟩, fun _ => rfl, fun _ => rfl, fun _ => rfl, fun _ => rfl⟩

theorem Aged.after (h : Aged w [] p) (calls : List PolicyCall) : Aged w calls (after p calls) := by
  induction calls with
  | nil => exact h
  | cons call past ih =>
    cases call with
    | onAccess id => exact ih.onAccess id
    | onResident id tier => exact ih.onResident id tier
    | onEvict id tier =>
      exact ⟨ih.exp2, ih.ageAware, ih.window, ⟨ih.follows.clock, ih.follows.stamps⟩, ih.decayed,
        ih.updated, ih.probability, ih.confidence⟩
    | setLayerProbability id value => exact ih.setLayerProbability id value
    | setPrefetchConfidence id value => exact ih.setPrefetchConfidence id value

/-! ## reading the score -/

theorem hintStamp_le {id : ExpertId} {stamp : Nat} (h : hintStamp id calls = some stamp) :
    stamp ≤ clock calls := by
  induction calls with
  | nil => cases h
  | cons call past ih =>
    cases call with
    | onAccess i => exact Nat.le_succ_of_le (ih h)
    | onResident i tier =>
      have := ih h
      unfold clock
      split <;> omega
    | onEvict i tier => exact ih h
    | setLayerProbability i probability =>
      unfold hintStamp at h
      split at h
      · exact Nat.le_of_eq (Option.some.inj h).symm
      · exact ih h
    | setPrefetchConfidence i confidence =>
      unfold hintStamp at h
      split at h
      · exact Nat.le_of_eq (Option.some.inj h).symm
      · exact ih h

theorem Aged.readRecency (h : Aged w calls p) (id : ExpertId) :
    p.readRecency id = fadingOf w (clock calls) (accessStamps id calls).head? := by
  have hclock : p.clock = clock calls := h.follows.clock
  unfold HybridPolicy.readRecency
  rw [h.decayed, hclock]
  cases hstamp : (accessStamps id calls).head? with
  | none => cases p.lastAccess.lookup id <;> rfl
  | some stamp =>
    have hlast := lastStamp_of_accessed hstamp
    have hlookup : p.lastAccess.lookup id = some stamp := (h.follows.stamps id).trans hlast
    rw [hlookup]
    exact h.decay (lastStamp_le hlast)

theorem Aged.readFrequency (h : Aged w calls p) (id : ExpertId) :
    p.readFrequency id = popularity w calls id := by
  unfold HybridPolicy.readFrequency popularity
  rw [h.decayed, h.readRecency]
  cases hstamps : accessStamps id calls with
  | nil => rfl
  | cons stamp stamps => exact sum_fading_trans (stamp :: stamps) stamp (clock calls)

theorem Aged.readPrediction (h : Aged w calls p) (id : ExpertId) :
    p.readPrediction id = fadingOf w (clock calls) (hintStamp id calls) := by
  have hclock : p.clock = clock calls := h.follows.clock
  unfold HybridPolicy.readPrediction
  rw [h.updated, hclock]
  cases hstamp : hintStamp id calls with
  | none => rfl
  | some stamp => exact h.decay (hintStamp_le hstamp)

theorem Aged.score (h : Aged w calls p) (id : ExpertId) : p.score id = ageAwareScore w calls id := by
  rw [HybridPolicy.score_eq h.ageAware, h.readFrequency, h.readRecency, h.readPrediction, h.probability,
    h.confidence]
  rfl

/-! ## bounds -/

theorem popularity_nonneg (id : ExpertId) : 0 ≤ popularity w calls id := by
  refine List.sum_nonneg fun x hx => ?_
  obtain ⟨stamp, -, rfl⟩ := List.mem_map.mp hx
  exact (fading_pos _ _).le

theorem fadingOf_mem {now : Nat} {stamp : Option Nat} (h : ∀ s, stamp = some s → s ≤ now) :
    0 ≤ fadingOf w now stamp ∧ fadingOf w now stamp ≤ 1 := by
  cases stamp with
  | none => exact ⟨le_rfl, zero_le_one⟩
  | some s => exact ⟨(fading_pos _ _).le, fading_le_one (h s rfl)⟩

theorem hint_mem (given : Option ℚ) : 0 ≤ hint given ∧ hint given ≤ 1 := by
  cases given with
  | none => exact ⟨le_rfl, zero_le_one⟩
  | some value =>
    have hlow : 0 ≤ HybridPolicy.clamp01 value := le_max_left _ _
    have hhigh : HybridPolicy.clamp01 value ≤ 1 := max_le zero_le_one (min_le_right _ _)
    exact ⟨Rat.cast_nonneg.mpr hlow, (Rat.cast_le.mpr hhigh).trans_eq Rat.cast_one⟩

theorem ageAwareScore_mem (w : Nat) (calls : List PolicyCall) (id : ExpertId) :
    0 ≤ ageAwareScore w calls id ∧ ageAwareScore w calls id < 1 := by
  have hF : 0 ≤ popularity w calls id := popularity_nonneg id
  obtain ⟨hR, hR'⟩ : 0 ≤ fadingOf w (clock calls) (accessStamps id calls).head? ∧
      fadingOf w (clock calls) (accessStamps id calls).head? ≤ 1 :=
    fadingOf_mem fun s hs => lastStamp_le (lastStamp_of_accessed hs)
  obtain ⟨hD, hD'⟩ : 0 ≤ fadingOf w (clock calls) (hintStamp id calls) ∧
      fadingOf w (clock calls) (hintStamp id calls) ≤ 1 := fadingOf_mem fun s hs => hintStamp_le hs
  obtain ⟨hp, hp'⟩ := hint_mem (lastProbability id calls)
  obtain ⟨hc, hc'⟩ := hint_mem (lastConfidence id calls)
  unfold ageAwareScore
  generalize popularity w calls id = F at *
  generalize fadingOf w (clock calls) (accessStamps id calls).head? = R at *
  generalize fadingOf w (clock calls) (hintStamp id calls) = D at *
  generalize hint (lastProbability id calls) = prob at *
  generalize hint (lastConfidence id calls) = conf at *
  have hpopular : 4 / 10 * F / (F + 8) < 4 / 10 := by
    rw [div_lt_iff₀ (by linarith)]
    linarith
  have hpredicted : prob * conf * D ≤ 1 :=
    mul_le_one₀ (mul_le_one₀ hp' hc hc') hD hD'
  have hpredicted' : 0 ≤ prob * conf * D := mul_nonneg (mul_nonneg hp hc) hD
  have hpopular' : 0 ≤ 4 / 10 * F / (F + 8) := by positivity
  have hassoc : 3 / 10 * prob * conf * D = 3 / 10 * (prob * conf * D) := by ring
  rw [hassoc]
  constructor <;> linarith

theorem score_closed_form {observationWindow : Nat} {policy : HybridPolicy ℝ}
    (accepted : HybridPolicy.create (fun x : ℝ => 2 ^ x) true observationWindow = .ok policy)
    (calls : List PolicyCall) (id : ExpertId) :
    (after policy calls).score id = ageAwareScore observationWindow calls id ∧
    0 ≤ (after policy calls).score id ∧ (after policy calls).score id < 1 := by
  have hscore := ((aged_create accepted).after calls).score id
  rw [hscore]
  exact ⟨rfl, ageAwareScore_mem observationWindow calls id⟩

/-- registered, accessed twice with another expert between, and hinted -/
theorem score_of_two_accesses : ∃ policy : HybridPolicy ℝ,
    HybridPolicy.create (fun x : ℝ => 2 ^ x) true 4096 = .ok policy ∧
    (after policy [.onAccess 7, .setLayerProbability 7 2, .onAccess 3, .onAccess 7,
      .onResident 7 .Ram]).score 7 =
      ageAwareScore 4096 [.onAccess 7, .setLayerProbability 7 2, .onAccess 3, .onAccess 7,
        .onResident 7 .Ram] 7 := by
  have accepted : HybridPolicy.create (fun x : ℝ => 2 ^ x) true 4096 =
      .ok { exp2 := fun x => 2 ^ x, ageAware := true, observationWindow := 4096 } := rfl
  exact ⟨_, accepted, (score_closed_form accepted _ 7).1⟩

end

end HyperMoE
