import HyperMoE.Models.ModelManifest

/-!
# The budget of the experts on a device

`ExpertDeviceBudget.cpp`: how many bytes of a device the experts may have, as it was configured, or
as much as the reservations leave.  The arithmetic is under watch.

* `planExpertDeviceBudget`   the plan;
* `reserved`, `room`         the reservations and the memory, as exact numbers;
* `Safe`                     what a plan promises;
* `wp_plan`                  it is so, and no operation wraps; why an automatic plan is refused.
-/

namespace HyperMoE.Models

open Lib Lib.Fallible Tensor

/-- `CudaMemoryPool::defaultMaximumCachedBytes` -/
def defaultMaximumCachedBytes : UInt64 := 512 * 1024 * 1024

structure MemoryInfo where
  totalBytes : UInt64 := 0
  freeBytes : UInt64 := 0

structure ExpertDeviceReservations where
  kvCacheBytes : UInt64 := 256 * 1024 * 1024
  workspaceBytes : UInt64 := 512 * 1024 * 1024
  stagingPoolBytes : UInt64 := defaultMaximumCachedBytes
  safetyBytes : UInt64 := 512 * 1024 * 1024
  deriving DecidableEq

structure ExpertDeviceBudgetPlan where
  automatic : Bool := false
  configuredBytes : UInt64 := 0
  effectiveBytes : UInt64 := 0
  totalDeviceBytes : UInt64 := 0
  freeDeviceBytesAfterStatic : UInt64 := 0
  staticTensorBytes : UInt64 := 0
  reservations : ExpertDeviceReservations
  transferAllowanceBytes : UInt64 := 0
  reservedBytes : UInt64 := 0
  deriving DecidableEq

def checkedAdd (left right : UInt64) : Code UInt64 := do
  throwIf (right > maxWord - left)
    (.overflow_error "expert device reservation accounting overflows")
  Watched.add left right

/-- the reserved and the effective bytes of the automatic mode -/
def automaticBytes (reservations : ExpertDeviceReservations)
    (transferAllowanceBytes available : UInt64) : Code (UInt64 × UInt64) := do
  throwIf (reservations.workspaceBytes = 0 ∨ reservations.safetyBytes = 0 ∨
      reservations.stagingPoolBytes < defaultMaximumCachedBytes)
    (.invalid_argument "automatic expert budget requires workspace, safety, and the 512MiB transfer pool reservation")
  let execution ← checkedAdd reservations.kvCacheBytes reservations.workspaceBytes
  let headroom ← checkedAdd reservations.stagingPoolBytes reservations.safetyBytes
  let headroom ← checkedAdd headroom transferAllowanceBytes
  let reservedBytes ← checkedAdd execution headroom
  throwIf (reservedBytes ≥ available)
    (.invalid_argument "GPU headroom reservations leave no memory for experts")
  let remaining ← Watched.sub available reservedBytes
  let effectiveBytes ← Watched.mul (remaining / 256) 256
  return (reservedBytes, effectiveBytes)

/-- the same of the manual mode -/
def manualBytes (configuredBytes available : UInt64) : Code (UInt64 × UInt64) := do
  throwIf (configuredBytes > available)
    (.invalid_argument "expert VRAM budget exceeds free device memory after static tensor loading")
  return (0, configuredBytes)

def modeBytes (configuredBytes : UInt64) (automatic : Bool) (reservations : ExpertDeviceReservations)
    (transferAllowanceBytes available : UInt64) : Code (UInt64 × UInt64) :=
  if automatic then automaticBytes reservations transferAllowanceBytes available
  else manualBytes configuredBytes available

def planExpertDeviceBudget (configuredBytes : UInt64) (automatic : Bool) (memory : MemoryInfo)
    (staticTensorBytes : UInt64) (reservations : ExpertDeviceReservations)
    (largestExpertBytes transferAllowanceBytes : UInt64) : Code ExpertDeviceBudgetPlan := do
  throwIf (configuredBytes = 0 ∨ largestExpertBytes = 0 ∨ memory.totalBytes = 0 ∨
      memory.freeBytes > memory.totalBytes ∨ staticTensorBytes > memory.totalBytes ∨
      memory.totalBytes > maxWord)
    (.invalid_argument "invalid GPU memory snapshot or expert device budget")
  let rest ← Watched.sub memory.totalBytes staticTensorBytes
  let available := if rest < memory.freeBytes then rest else memory.freeBytes
  let (reservedBytes, effectiveBytes) ←
    modeBytes configuredBytes automatic reservations transferAllowanceBytes available
  throwIf (effectiveBytes < largestExpertBytes)
    (.invalid_argument "safe expert device budget cannot hold the largest indexed expert")
  return {
    automatic
    configuredBytes
    effectiveBytes
    totalDeviceBytes := memory.totalBytes
    freeDeviceBytesAfterStatic := memory.freeBytes
    staticTensorBytes
    reservations
    transferAllowanceBytes
    reservedBytes }

/-! ## as numbers -/

def reserved (reservations : ExpertDeviceReservations) (transferAllowanceBytes : UInt64) : Nat :=
  reservations.kvCacheBytes.toNat + reservations.workspaceBytes.toNat +
    reservations.stagingPoolBytes.toNat + reservations.safetyBytes.toNat +
    transferAllowanceBytes.toNat

def room (memory : MemoryInfo) (staticTensorBytes : UInt64) : Nat :=
  min memory.freeBytes.toNat (memory.totalBytes.toNat - staticTensorBytes.toNat)

/-- what is asked of the snapshot and of the sizes -/
structure Plausible (configuredBytes largestExpertBytes : UInt64) (memory : MemoryInfo)
    (staticTensorBytes : UInt64) : Prop where
  configured : configuredBytes ≠ 0
  largest : largestExpertBytes ≠ 0
  total : memory.totalBytes ≠ 0
  free : memory.freeBytes ≤ memory.totalBytes
  static : staticTensorBytes ≤ memory.totalBytes

/-- what the automatic mode asks of the reservations -/
structure Reservable (reservations : ExpertDeviceReservations) : Prop where
  workspace : reservations.workspaceBytes ≠ 0
  safety : reservations.safetyBytes ≠ 0
  staging : defaultMaximumCachedBytes ≤ reservations.stagingPoolBytes

/-- what a plan promises -/
structure Safe (configuredBytes : UInt64) (automatic : Bool) (largest reserved room : Nat)
    (plan : ExpertDeviceBudgetPlan) : Prop where
  holds : largest ≤ plan.effectiveBytes.toNat
  whenAutomatic : automatic = true → plan.reservedBytes.toNat = reserved ∧
    256 ∣ plan.effectiveBytes.toNat ∧ plan.effectiveBytes.toNat + reserved ≤ room ∧
    room < plan.effectiveBytes.toNat + 256 + reserved
  whenManual : automatic = false → plan.effectiveBytes = configuredBytes ∧
    plan.effectiveBytes.toNat ≤ room

/-- no multiple of 256 holds the largest expert beside the reservations -/
def NoBudget (largest reserved room : Nat) : Prop :=
  ∀ bytes, 256 ∣ bytes → largest ≤ bytes → room < bytes + reserved

/-! ## the parts -/

section
variable {exact : Bool}

theorem wp_checkedAdd {a b : UInt64} {Q : Except StdError UInt64 → Bool → Prop}
    (hok : ∀ c : UInt64, c.toNat = a.toNat + b.toNat → Q (.ok c) exact)
    (herror : ∀ e, 2 ^ 64 ≤ a.toNat + b.toNat → Q (.error e) exact) : wp (checkedAdd a b) Q exact := by
  have ha := UInt64.toNat_lt a
  have hroom : (maxWord - a).toNat = 2 ^ 64 - 1 - a.toNat := by
    rw [UInt64.toNat_sub_of_le _ _ (UInt64.le_iff_toNat_le.mpr _), Watched.toNat_maxWord]
    rw [Watched.toNat_maxWord]
    omega
  unfold checkedAdd
  rw [wp_bind, wp_throwIf]
  split
  · next h =>
    have h' := UInt64.lt_iff_toNat_lt.mp h
    exact herror _ (by omega)
  · next h =>
    have h' := UInt64.le_iff_toNat_le.mp (UInt64.not_lt.mp h)
    exact Watched.wp_add (by omega) hok

theorem wp_automaticBytes (r : ExpertDeviceReservations) (transferAllowanceBytes available : UInt64) :
    wp (automaticBytes r transferAllowanceBytes available) (fun outcome exact' =>
      exact' = exact ∧ match outcome with
        | .ok (reservedBytes, effectiveBytes) =>
          reservedBytes.toNat = reserved r transferAllowanceBytes ∧ 256 ∣ effectiveBytes.toNat ∧
            effectiveBytes.toNat + reserved r transferAllowanceBytes ≤ available.toNat ∧
            available.toNat < effectiveBytes.toNat + 256 + reserved r transferAllowanceBytes
        | .error _ => ¬ Reservable r ∨ available.toNat ≤ reserved r transferAllowanceBytes) exact := by
  have havailable := UInt64.toNat_lt available
  have htotal : reserved r transferAllowanceBytes = r.kvCacheBytes.toNat + r.workspaceBytes.toNat +
    (r.stagingPoolBytes.toNat + r.safetyBytes.toNat + transferAllowanceBytes.toNat) := by
    unfold reserved
    omega
  generalize reserved r transferAllowanceBytes = total at htotal ⊢
  unfold automaticBytes
  rw [wp_bind, wp_throwIf]
  split
  · next h =>
    refine ⟨rfl, Or.inl fun hr => ?_⟩
    rcases h with h | h | h
    · exact hr.workspace h
    · exact hr.safety h
    · exact UInt64.not_le.mpr h hr.staging
  dsimp only
  rw [wp_bind]
  refine wp_checkedAdd (fun execution hexecution => ?_) fun _ h => ⟨rfl, Or.inr (by omega)⟩
  dsimp only
  rw [wp_bind]
  refine wp_checkedAdd (fun headroom hheadroom => ?_) fun _ h => ⟨rfl, Or.inr (by omega)⟩
  dsimp only
  rw [wp_bind]
  refine wp_checkedAdd (fun headroom' hheadroom' => ?_) fun _ h => ⟨rfl, Or.inr (by omega)⟩
  dsimp only
  rw [wp_bind]
  refine wp_checkedAdd (fun reservedBytes hreserved => ?_) fun _ h => ⟨rfl, Or.inr (by omega)⟩
  have hexact : reservedBytes.toNat = total := by omega
  dsimp only
  rw [wp_bind, wp_throwIf]
  split
  · next h =>
    have h' := UInt64.le_iff_toNat_le.mp h
    exact ⟨rfl, Or.inr (by omega)⟩
  next h =>
  have hlt := UInt64.lt_iff_toNat_lt.mp (UInt64.not_le.mp h)
  dsimp only
  rw [wp_bind]
  refine Watched.wp_sub (UInt64.le_iff_toNat_le.mpr (Nat.le_of_lt hlt)) fun remaining hremaining => ?_
  have hunits : (remaining / 256).toNat = remaining.toNat / 256 := UInt64.toNat_div _ _
  dsimp only
  rw [wp_bind]
  refine Watched.wp_mul ?_ fun effectiveBytes heffective => ?_
  · rw [hunits]
    show remaining.toNat / 256 * 256 < 2 ^ 64
    omega
  · have heffective' : effectiveBytes.toNat = remaining.toNat / 256 * 256 := by
      rw [heffective, hunits]
      rfl
    refine ⟨rfl, hexact, ?_, ?_, ?_⟩
    · exact ⟨remaining.toNat / 256, by omega⟩
    · omega
    · omega

theorem wp_manualBytes (configuredBytes available : UInt64) :
    wp (manualBytes configuredBytes available) (fun outcome exact' => exact' = exact ∧
      ∀ bytes, outcome = .ok bytes → bytes = (0, configuredBytes) ∧
        configuredBytes.toNat ≤ available.toNat) exact := by
  unfold manualBytes
  rw [wp_bind, wp_throwIf]
  split
  · exact ⟨rfl, fun bytes h => nomatch h⟩
  · next h =>
    refine ⟨rfl, fun bytes hbytes => ⟨(Except.ok.inj hbytes).symm, ?_⟩⟩
    exact UInt64.le_iff_toNat_le.mp (UInt64.not_lt.mp h)

theorem wp_modeBytes (configuredBytes : UInt64) (automatic : Bool) (r : ExpertDeviceReservations)
    (transferAllowanceBytes available : UInt64) :
    wp (modeBytes configuredBytes automatic r transferAllowanceBytes available)
      (fun outcome exact' => exact' = exact ∧ match outcome with
        | .ok (reservedBytes, effectiveBytes) =>
          (automatic = true → reservedBytes.toNat = reserved r transferAllowanceBytes ∧
            256 ∣ effectiveBytes.toNat ∧
            effectiveBytes.toNat + reserved r transferAllowanceBytes ≤ available.toNat ∧
            available.toNat < effectiveBytes.toNat + 256 + reserved r transferAllowanceBytes) ∧
          (automatic = false → effectiveBytes = configuredBytes ∧
            effectiveBytes.toNat ≤ available.toNat)
        | .error _ => automatic = true →
          ¬ Reservable r ∨ available.toNat ≤ reserved r transferAllowanceBytes) exact := by
  cases automatic with
  | true =>
    refine wp_mono (wp_automaticBytes r transferAllowanceBytes available) ?_
    rintro (e | ⟨reservedBytes, effectiveBytes⟩) exact' ⟨hexact, h⟩
    · exact ⟨hexact, fun _ => h⟩
    · exact ⟨hexact, fun _ => h, fun hmode => nomatch hmode⟩
  | false =>
    refine wp_mono (wp_manualBytes configuredBytes available) ?_
    rintro (e | bytes) exact' ⟨hexact, h⟩
    · exact ⟨hexact, fun hmode => nomatch hmode⟩
    · obtain ⟨rfl, hle⟩ := h bytes rfl
      exact ⟨hexact, (fun hmode => nomatch hmode), fun _ => ⟨rfl, hle⟩⟩

end

/-! ## the plan -/

theorem wp_plan (configuredBytes : UInt64) (automatic : Bool) (memory : MemoryInfo)
    (staticTensorBytes : UInt64) (reservations : ExpertDeviceReservations)
    (largestExpertBytes transferAllowanceBytes : UInt64) :
    wp (planExpertDeviceBudget configuredBytes automatic memory staticTensorBytes reservations
      largestExpertBytes transferAllowanceBytes) (fun outcome exact => exact = true ∧
        match outcome with
        | .ok plan => Safe configuredBytes automatic largestExpertBytes.toNat
          (reserved reservations transferAllowanceBytes) (room memory staticTensorBytes) plan
        | .error _ => automatic = true →
          ¬ Plausible configuredBytes largestExpertBytes memory staticTensorBytes ∨
          ¬ Reservable reservations ∨ NoBudget largestExpertBytes.toNat
            (reserved reservations transferAllowanceBytes) (room memory staticTensorBytes)) true := by
  unfold planExpertDeviceBudget
  rw [wp_bind, wp_throwIf]
  split
  · next h =>
    refine ⟨rfl, fun _ => Or.inl fun hp => ?_⟩
    rcases h with h | h | h | h | h | h
    · exact hp.configured h
    · exact hp.largest h
    · exact hp.total h
    · exact UInt64.not_lt.mpr hp.free h
    · exact UInt64.not_lt.mpr hp.static h
    · have := UInt64.toNat_lt memory.totalBytes
      have := UInt64.lt_iff_toNat_lt.mp h
      rw [Watched.toNat_maxWord] at this
      omega
  next h =>
  simp only [not_or] at h
  obtain ⟨_, hlargest, _, _, hstatic, _⟩ := h
  have hpositive : 0 < largestExpertBytes.toNat :=
    Nat.pos_of_ne_zero fun h => hlargest (UInt64.toNat_inj.mp h)
  dsimp only
  rw [wp_bind]
  refine Watched.wp_sub (UInt64.not_lt.mp hstatic) fun rest hrest => ?_
  have havailable : (if rest < memory.freeBytes then rest else memory.freeBytes).toNat =
      room memory staticTensorBytes := by
    rw [room, ← hrest]
    split
    · next hlt => exact (Nat.min_eq_right (Nat.le_of_lt (UInt64.lt_iff_toNat_lt.mp hlt))).symm
    · next hge =>
      exact (Nat.min_eq_left (UInt64.le_iff_toNat_le.mp (UInt64.not_lt.mp hge))).symm
  dsimp only
  generalize (if rest < memory.freeBytes then rest else memory.freeBytes) = available at havailable ⊢
  refine wp_seq (wp_modeBytes configuredBytes automatic reservations transferAllowanceBytes available)
    ?_ ?_
  · rintro ⟨reservedBytes, effectiveBytes⟩ exact ⟨hexact, hautomatic, hmanual⟩
    rw [havailable] at hautomatic hmanual
    dsimp only
    rw [wp_bind, wp_throwIf]
    split
    · next hless =>
      refine ⟨hexact, fun hmode => Or.inr (Or.inr fun bytes hbytes hle => ?_)⟩
      obtain ⟨_, hunits, _, hmore⟩ := hautomatic hmode
      have hless' := UInt64.lt_iff_toNat_lt.mp hless
      omega
    · next henough =>
      have hlargest' := UInt64.le_iff_toNat_le.mp (UInt64.not_lt.mp henough)
      exact ⟨hexact, hlargest', hautomatic, hmanual⟩
  · rintro e exact ⟨hexact, h⟩
    refine ⟨hexact, fun hmode => Or.inr ?_⟩
    refine (h hmode).imp id fun hfull bytes _ hle => ?_
    rw [havailable] at hfull
    omega

/-- the plan is safe, and an automatic one is refused for a reason -/
theorem planExpertDeviceBudget_safe (configuredBytes : UInt64) (automatic : Bool)
    (memory : MemoryInfo) (staticTensorBytes : UInt64) (reservations : ExpertDeviceReservations)
    (largestExpertBytes transferAllowanceBytes : UInt64) :
    ∃ outcome, (planExpertDeviceBudget configuredBytes automatic memory staticTensorBytes
        reservations largestExpertBytes transferAllowanceBytes).exec true = (outcome, true) ∧
      (∀ plan, outcome = .ok plan → Safe configuredBytes automatic largestExpertBytes.toNat
        (reserved reservations transferAllowanceBytes) (room memory staticTensorBytes) plan) ∧
      (∀ e, outcome = .error e → automatic = true →
        ¬ Plausible configuredBytes largestExpertBytes memory staticTensorBytes ∨
        ¬ Reservable reservations ∨ NoBudget largestExpertBytes.toNat
          (reserved reservations transferAllowanceBytes) (room memory staticTensorBytes)) := by
  have h := wp_plan configuredBytes automatic memory staticTensorBytes reservations
    largestExpertBytes transferAllowanceBytes
  unfold wp at h
  cases hrun : (planExpertDeviceBudget configuredBytes automatic memory staticTensorBytes
    reservations largestExpertBytes transferAllowanceBytes).exec true with
  | mk outcome exact =>
    rw [hrun] at h
    obtain ⟨hexact, h⟩ := h
    obtain rfl : exact = true := hexact
    cases outcome with
    | ok plan =>
      refine ⟨_, rfl, fun plan' hplan => ?_, fun e he => nomatch he⟩
      obtain rfl := Except.ok.inj hplan
      exact h
    | error e => exact ⟨_, rfl, fun plan hplan => (nomatch hplan), fun _ _ => h⟩

/-- the automatic mode does not use the configured budget, but refuses it if it is zero -/
theorem zero_budget_refused :
    let memory : MemoryInfo := { totalBytes := 12884901888, freeBytes := 7516192768 }
    ((planExpertDeviceBudget 0 true memory 5368709120 {} 6291456 12582912).exec true).1 =
        .error (.invalid_argument "invalid GPU memory snapshot or expert device budget") ∧
      Reservable {} ∧ 256 ∣ 5624561664 ∧ 6291456 ≤ 5624561664 ∧
      5624561664 + reserved {} 12582912 ≤ room memory 5368709120 ∧
      room memory 5368709120 < 5624561664 + 256 + reserved {} 12582912 := by
  refine ⟨by decide +kernel, ⟨by decide, by decide, by decide⟩, by decide, by decide, ?_, ?_⟩
  · decide +kernel
  · decide +kernel

end HyperMoE.Models
