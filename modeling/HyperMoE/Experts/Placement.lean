import HyperMoE.Experts.Operations

/-!
# Payload placement over whole runs

With transfers that deliver or fail, an expert's bytes are where its location says: in VRAM a
device buffer and no host buffer, in RAM or pinned memory the other way round, on NVMe neither.
Two pairs of tiers have no branch of their own and fall into the generic copy, which does not
carry the bytes over: `PinnedRam -> Vram` and `Vram -> PinnedRam`.

* `Faithful`         the transfers deliver the stored bytes, or the bytes of their source;
* `Placed`           the invariant of one expert, for the payloads it may hold;
* `Copied.placed`    the five ways to copy the weights;
* `Step.placed`      every effect but the two pairs keeps it;
* `CopiesGenerically`  a move between these tiers that comes to the copy;
* `AvoidsGenericCopy`  the condition on the operations.
-/

namespace HyperMoE

open Lib Lib.Fallible

namespace ExpertManager

variable {π : Type}

/-- a transfer that completes delivers the stored bytes of a load, and for a copy between RAM and
VRAM the bytes of its source buffer -/
structure Faithful (store : ExpertKey → Bytes) (T : Transfers) : Prop where
  load : ∀ n r res b, T n r = .ok res → res.status = .Completed → r.source = .Nvme →
    r.destination = .Ram → res.buffer = some b → b.bytes = store (r.layerId, r.expertId)
  upload : ∀ n r res b, T n r = .ok res → res.status = .Completed → r.source = .Ram →
    r.destination = .Vram → res.deviceBuffer = some b →
      ∃ w, r.hostBuffer = some w ∧ b.bytes = w.bytes
  download : ∀ n r res b, T n r = .ok res → res.status = .Completed → r.source = .Vram →
    r.destination = .Ram → res.buffer = some b →
      ∃ d, r.sourceDeviceBuffer = some d ∧ b.bytes = d.bytes

/-- the buffer that a tier calls for, with an admissible payload, and no other -/
def PlacedIn (Pay : Bytes → Prop) (weights deviceWeights : Option Buffer) : MemoryTier → Prop
  | .Vram => weights = none ∧ ∃ b, deviceWeights = some b ∧ Pay b.bytes
  | .Ram | .PinnedRam => deviceWeights = none ∧ ∃ b, weights = some b ∧ Pay b.bytes
  | .Nvme => weights = none ∧ deviceWeights = none

def Placed (Pay : Bytes → Prop) (m : ManagedExpert) : Prop :=
  PlacedIn Pay m.weights m.deviceWeights m.location

def AllPlaced (Pay : ExpertKey → Bytes → Prop) (s : ExpertManager π) : Prop :=
  ∀ k m, s.experts.lookup k = some m → Placed (Pay k) m

section
variable {Pay Pay' : ExpertKey → Bytes → Prop} {s s' : ExpertManager π} {k : ExpertKey}
  {m m' : ManagedExpert}

theorem AllPlaced.same (A : AllPlaced Pay s) (h : s'.experts = s.experts) : AllPlaced Pay s' :=
  fun k m hk => A k m (h ▸ hk)

theorem PlacedIn.mono {P Q : Bytes → Prop} {w d : Option Buffer} {tier : MemoryTier}
    (h : PlacedIn P w d tier) (hPQ : ∀ b, P b → Q b) : PlacedIn Q w d tier := by
  cases tier with
  | Vram =>
    obtain ⟨hw, b, hb, hp⟩ := h
    exact ⟨hw, b, hb, hPQ _ hp⟩
  | Ram =>
    obtain ⟨hw, b, hb, hp⟩ := h
    exact ⟨hw, b, hb, hPQ _ hp⟩
  | PinnedRam =>
    obtain ⟨hw, b, hb, hp⟩ := h
    exact ⟨hw, b, hb, hPQ _ hp⟩
  | Nvme => exact h

theorem placedIn_host {P : Bytes → Prop} {w d : Option Buffer} {tier : MemoryTier}
    (h : tier = .Ram ∨ tier = .PinnedRam) :
    PlacedIn P w d tier ↔ d = none ∧ ∃ b, w = some b ∧ P b.bytes := by
  rcases h with rfl | rfl <;> exact Iff.rfl

/-- one expert overwritten; the other experts may keep their payloads -/
theorem AllPlaced.insert (A : AllPlaced Pay s) (he : s'.experts = s.experts.insert k m')
    (hk : Placed (Pay' k) m') (ho : ∀ a, a ≠ k → ∀ b, Pay a b → Pay' a b) :
    AllPlaced Pay' s' := fun a x hx => by
  rw [he, Table.lookup_insert'] at hx
  split at hx
  · next e =>
    obtain rfl := Option.some.inj hx
    exact e ▸ hk
  · next e => exact PlacedIn.mono (A a x hx) (ho a e)

end

variable [CachePolicy π] {T : Transfers} {store : ExpertKey → Bytes}
  {Pay : ExpertKey → Bytes → Prop}

/-- the two moves that fall into the generic copy with their bytes in the wrong kind of buffer -/
def Effect.generic : Effect → Bool
  | .relocated _ _ .PinnedRam .Vram | .relocated _ _ .Vram .PinnedRam => true
  | _ => false

theorem LoadedBytes.payload {k : ExpertKey} {m : ManagedExpert} {b : Buffer}
    (h : LoadedBytes T k m b) (hT : Faithful store T) (hk : m.metadata.key = k) :
    b.bytes = store k := by
  obtain ⟨-, n, r, hr, hs, hb⟩ := h
  have hkey : (m.metadata.layer, k.2) = k := by
    rw [← hk]
    rfl
  rw [← hkey]
  exact hT.load n _ r b hr hs rfl rfl hb

/-- whatever branch copied them, the weights are what the destination calls for -/
theorem Copied.placed [ho : SelectsOffered π] {k : ExpertKey} {m : ManagedExpert}
    {source destination : MemoryTier} {w d : Option Buffer} (hT : Faithful store T)
    (hPay : Pay k (store k)) (hk : m.metadata.key = k) (hm : Placed (Pay k) m)
    (hat : FoundAt π m source destination) (hne : source ≠ destination)
    (hstage : ¬ (source = .Nvme ∧ destination = .Vram)) (hd : destination ≠ .Nvme)
    (hgen : Effect.generic (.relocated k 0 source destination) = false)
    (h : Copied T true k m source destination w d) : PlacedIn (Pay k) w d destination := by
  unfold Copied at h
  split at h
  · next hs =>
    obtain ⟨b, hb, rfl, rfl⟩ := h
    have hp : Pay k b.bytes := hb.payload hT hk ▸ hPay
    cases destination with
    | Vram => exact absurd ⟨hs.1, rfl⟩ hstage
    | Ram => exact ⟨rfl, b, rfl, hp⟩
    | PinnedRam => exact ⟨rfl, b, rfl, hp⟩
    | Nvme => exact absurd rfl hd
  next hs₁ =>
  split at h
  · next hs =>
    obtain ⟨rfl, rfl, -⟩ := hs
    obtain ⟨n, r, b, hr, hst, hb, rfl, rfl⟩ := h
    obtain ⟨x, hx, hbytes⟩ := hT.upload n _ r b hr hst rfl rfl hb
    have hx : m.weights = some x := hx
    rcases hat.2 ho with hloc | ⟨-, -, -, hw⟩
    · unfold Placed at hm
      rw [hloc] at hm
      obtain ⟨-, y, hy, hp⟩ := hm
      obtain rfl := Option.some.inj (hx.symm.trans hy)
      exact ⟨rfl, b, rfl, hbytes ▸ hp⟩
    · rw [hw] at hx
      cases hx
  next hs₂ =>
  have hloc : m.location = source := by
    rcases hat.2 ho with h | ⟨h₁, h₂, -⟩
    · exact h
    · exact absurd ⟨h₁, h₂, rfl⟩ hs₂
  unfold Placed at hm
  rw [hloc] at hm
  split at h
  · next hs =>
    obtain ⟨rfl, rfl, -⟩ := hs
    obtain ⟨n, r, b, hr, hst, hb, rfl, rfl⟩ := h
    obtain ⟨x, hx, hbytes⟩ := hT.download n _ r b hr hst rfl rfl hb
    have hx : m.deviceWeights = some x := hx
    obtain ⟨-, y, hy, hp⟩ := hm
    obtain rfl := Option.some.inj (hx.symm.trans hy)
    exact ⟨rfl, b, rfl, hbytes ▸ hp⟩
  · next hs₃ =>
    -- what is left of the generic copy is between RAM and pinned memory
    obtain ⟨rfl, hw⟩ := h
    have hhost : (source = .Ram ∨ source = .PinnedRam) ∧
        (destination = .Ram ∨ destination = .PinnedRam) := by
      cases source <;> cases destination <;> simp_all [Effect.generic]
    obtain ⟨hnone, x, hx, hp⟩ := (placedIn_host hhost.1).mp hm
    refine (placedIn_host hhost.2).mpr ⟨hnone, ?_⟩
    rw [hx] at hw
    obtain ⟨b, hb, hbytes⟩ := Option.map_eq_some_iff.mp hw
    exact ⟨b, hb, hbytes ▸ hp⟩

/-- an adoption changes the payload of its expert, every other effect keeps the payloads -/
theorem Step.placed [SelectsOffered π] {s s' : ExpertManager π} {e : Effect}
    (h : Step T e s s') (hT : Faithful store T) (hPay : ∀ k, Pay k (store k)) (W : Wired s)
    (ht : s.hasTransfers = true) (hgen : e.generic = false) (hadopt : ∀ k t b, e ≠ .adopted k t b)
    (A : AllPlaced Pay s) : AllPlaced Pay s' := by
  cases e with
  | failed => exact A.same h.experts
  | leaked k => exact A.same h.experts
  | evicted k id source =>
    obtain ⟨m, h⟩ := h
    exact A.insert h.experts ⟨rfl, rfl⟩ fun _ _ _ hb => hb
  | loaded k id =>
    obtain ⟨m, b, h, -, -, -, hb, -⟩ := h
    exact A.insert h.experts ⟨rfl, b, rfl, hb.payload hT (W.keyed k m h.found) ▸ hPay k⟩
      fun _ _ _ hb => hb
  | relocated k id source destination =>
    obtain ⟨m, w, d, h, -, hne, hstage, hat, -, hc, -⟩ := h
    rw [ht] at hc
    have hgen' : Effect.generic (.relocated k 0 source destination) = false := by
      cases source <;> cases destination <;> first | rfl | cases hgen
    exact A.insert h.experts (hc.placed hT (hPay k) (W.keyed k m h.found) (A k m h.found) hat hne
      hstage h.reserved hgen') fun _ _ _ hb => hb
  | adopted k tier b => exact absurd rfl (hadopt k tier b)
  | noted k =>
    obtain ⟨m, m', h⟩ := h
    refine A.insert h.experts ?_ fun _ _ _ hb => hb
    have := A k m h.found
    unfold Placed ManagedExpert.location at this ⊢
    rw [h.holding.metadata, h.holding.weights, h.holding.deviceWeights]
    exact this
  | counted source n => exact A.same h.2.1
  | registered k =>
    obtain ⟨m, h⟩ := h
    refine A.insert h.experts ?_ fun _ _ _ hb => hb
    unfold Placed
    rw [h.location]
    exact ⟨h.weights, h.deviceWeights⟩
  | unregistered k =>
    obtain ⟨m, h⟩ := h
    intro a x hx
    rw [h.experts, Table.lookup_erase'] at hx
    split at hx
    · cases hx
    · exact A a x hx
  | leased k =>
    obtain ⟨m, h⟩ := h
    exact A.insert h.experts (A k m h.found) fun _ _ _ hb => hb
  | unleased k =>
    obtain ⟨m, h⟩ := h
    exact A.insert h.experts (A k m h.found) fun _ _ _ hb => hb

/-- the adopted buffer is the new payload -/
theorem Step.placed_adopted {s s' : ExpertManager π} {k : ExpertKey} {tier : MemoryTier}
    {b : Buffer} {Pay' : ExpertKey → Bytes → Prop} (h : Step T (.adopted k tier b) s s')
    (hb : Pay' k b.bytes) (ho : ∀ a, a ≠ k → ∀ b, Pay a b → Pay' a b) (A : AllPlaced Pay s) :
    AllPlaced Pay' s' := by
  obtain ⟨m, w, d, h, -, -, ⟨rfl, rfl, rfl⟩ | ⟨rfl, -, rfl, rfl⟩, -⟩ := h
  · exact A.insert h.experts ⟨rfl, b, rfl, hb⟩ ho
  · exact A.insert h.experts ⟨rfl, b, rfl, hb⟩ ho

/-- what an effect needs to find, and leaves to find -/
structure PlacedInv (Pay : ExpertKey → Bytes → Prop) (s : ExpertManager π) : Prop where
  wired : Wired s
  transfers : s.hasTransfers = true
  placed : AllPlaced Pay s

theorem Step.hasTransfers {s s' : ExpertManager π} {e : Effect} (h : Step T e s s') :
    s'.hasTransfers = s.hasTransfers := by
  cases e with
  | failed => exact h.frame.hasTransfers
  | leaked k => exact h.frame.hasTransfers
  | evicted k id source => exact h.choose_spec.frame.hasTransfers
  | loaded k id =>
    obtain ⟨m, b, h, -⟩ := h
    exact h.frame.hasTransfers
  | relocated k id source destination =>
    obtain ⟨m, w, d, h, -⟩ := h
    exact h.frame.hasTransfers
  | adopted k tier b =>
    obtain ⟨m, w, d, h, -⟩ := h
    exact h.frame.hasTransfers
  | noted k =>
    obtain ⟨m, m', h⟩ := h
    exact h.frame.hasTransfers
  | counted source n => exact h.2.2.2.hasTransfers
  | registered k => exact h.choose_spec.hasTransfers
  | unregistered k => exact h.choose_spec.hasTransfers
  | leased k => exact h.choose_spec.frame.hasTransfers
  | unleased k => exact h.choose_spec.frame.hasTransfers

/-- the effects that neither copy generically nor adopt -/
def Effect.carries : Effect → Bool
  | .adopted _ _ _ => false
  | e => !e.generic

theorem chain_placed [SelectsOffered π] {s s' : ExpertManager π} {P : Effect → Prop}
    (h : Chain (Step T) P s s') (hT : Faithful store T) (hPay : ∀ k, Pay k (store k))
    (hP : ∀ e, P e → e.carries) (I : PlacedInv Pay s) : PlacedInv Pay s' := by
  refine h.keeps (fun e t t' he hs hI => ?_) I
  have hc := hP e he
  refine ⟨hs.wired hI.wired, hs.hasTransfers.trans hI.transfers, ?_⟩
  refine hs.placed hT hPay hI.wired hI.transfers ?_ ?_ hI.placed
  · cases e with
    | relocated k id source destination => simpa [Effect.carries] using hc
    | _ => rfl
  · rintro k t b rfl
    cases hc

/-! ## operations and runs -/

/-- the two tiers have no transfer of their own -/
def Untransferred (location destination : MemoryTier) : Prop :=
  location = .PinnedRam ∧ destination = .Vram ∨ location = .Vram ∧ destination = .PinnedRam

instance (location destination : MemoryTier) : Decidable (Untransferred location destination) :=
  inferInstanceAs (Decidable (_ ∨ _))

/-- the move of the expert goes between these tiers and comes to the copy: the expert is not leased,
and there is room -/
def CopiesGenerically (T : Transfers) (s : ExpertManager π) (k : ExpertKey)
    (destination : MemoryTier) : Prop :=
  ∃ m, s.experts.lookup k = some m ∧ Untransferred m.location destination ∧
    m.residencyLeases = 0 ∧
    ((makeRoomLocked T (s.fuel - 1) destination m.sizeBytes [m.policyId]).exec s).1 = .ok ()

/-- nothing in pinned memory is moved into VRAM, nothing in VRAM into pinned memory -/
def AvoidsGenericCopy (s : ManagerSystem π) (op : Op) (T : Transfers) : Prop :=
  match op with
  | .requestExpert target => ∀ k, target.resolves s.manager k →
      ¬ CopiesGenerically T s.manager k .Vram
  | .moveExpert target destination => ∀ k, target.resolves s.manager k →
      ¬ CopiesGenerically T s.manager k destination
  | .acquireResidentExpert k => ¬ CopiesGenerically T s.manager k .Vram
  | _ => True

/-- the stored bytes of the expert, or those of the buffer last adopted for it -/
def ManagerSystem.payload (store : ExpertKey → Bytes) (s : ManagerSystem π) (k : ExpertKey)
    (b : Bytes) : Prop :=
  b = store k ∨ s.adopted.lookup k = some b

theorem roomShape.carries {tier : MemoryTier} {pinned : List ExpertId} {e : Effect}
    (h : roomShape π tier pinned e) : e.carries := by
  cases e with
  | relocated k id source destination =>
    obtain ⟨-, -, rfl, rfl⟩ := h
    rfl
  | failed => rfl
  | evicted k id source => rfl
  | _ => exact h.elim

theorem RoomEffect.carries [ho : SelectsOffered π] {tier : MemoryTier} {pinned : List ExpertId}
    {e : Effect} (h : RoomEffect π tier pinned e) : e.carries := (h.2 ho).carries

theorem MoveEffect.carries [ho : SelectsOffered π] {k : ExpertKey} {id : ExpertId}
    {location destination : MemoryTier} {pinned : List ExpertId} {e : Effect}
    (h : MoveEffect π k id location destination pinned e)
    (h₁ : destination = .Vram → location ≠ .PinnedRam)
    (h₂ : destination = .PinnedRam → location ≠ .Vram) : e.carries := by
  rcases h.2 ho with h | ⟨-, h⟩ | ⟨-, -, h⟩
  · cases e with
    | relocated k' id' source destination' =>
      obtain ⟨-, -, ⟨rfl, rfl, -⟩ | ⟨-, -, ⟨rfl, rfl⟩ | ⟨rfl, rfl⟩⟩⟩ := h
      · cases source <;> cases destination' <;> first | rfl | simp_all
      · rfl
      · rfl
    | adopted k' tier b => exact h.elim
    | _ => rfl
  · exact h.carries
  · exact h.carries

/-- the effects of an operation carry the bytes over -/
def Carried (T : Transfers) (s : ExpertManager π) {α : Type} (_ : Except Exn α)
    (s' : ExpertManager π) : Prop := Chain (Step T) (fun e => e.carries = true) s s'

section
variable {s : ExpertManager π} {k : ExpertKey} {m : ManagedExpert} {destination : MemoryTier}

theorem OwnMove.carries [SelectsOffered π] {e : Effect} (h : OwnMove s k destination e)
    (hk : s.experts.lookup k = some m) (hown : ¬ Untransferred m.location destination) :
    e.carries := by
  obtain ⟨m', hk', h⟩ := h
  obtain rfl := Option.some.inj (hk.symm.trans hk')
  exact h.carries (fun hd hl => hown (.inl ⟨hl, hd⟩)) fun hd hl => hown (.inr ⟨hl, hd⟩)

/-- a move between the two tiers that does not come to the copy throws -/
theorem wp_move_uncopied [SelectsOffered π] (W : Wired s) (hk : s.experts.lookup k = some m)
    (hgen : Untransferred m.location destination) (hno : ¬ CopiesGenerically T s k destination) :
    wp (move T k destination [m.policyId])
      (fun r s' => (∃ e, r = .error e) ∧ Carried T s r s') s := by
  have htiers : m.location ≠ destination ∧ m.location ≠ .Nvme ∧ destination ≠ .Nvme := by
    rcases hgen with ⟨hl, rfl⟩ | ⟨hl, rfl⟩ <;> rw [hl] <;> decide
  obtain ⟨hne, hsource, hdest⟩ := htiers
  unfold move
  rw [wp_bind, wp_read]
  show wp (moveExpertLocked T (2 * s.experts.entries.length + 7 + 1) k destination _) _ s
  unfold moveExpertLocked
  rw [wp_bind, wp_require hk]
  show wp (_ >>= _) _ s
  rw [wp_bind, wp_read]
  show wp (if m.location = destination then _ else _) _ s
  rw [if_neg hne, wp_bind, wp_throwIf]
  by_cases hl : m.residencyLeases ≠ 0
  · rw [if_pos hl]
    exact ⟨⟨_, rfl⟩, Chain.refl⟩
  rw [if_neg hl]
  show wp (if m.location = .Nvme ∧ destination = .Vram then _ else _) _ s
  rw [if_neg fun h => hsource h.1, if_neg fun h => hsource h.1, if_neg hdest]
  -- there is no room
  have hroom := (moves T π (2 * s.experts.entries.length + 7)).2.1 s destination m.sizeBytes
    [m.policyId] W
  refine wp_seq (R := fun r s' => (∃ e, r = .error e) ∧ Roomed T destination [m.policyId] s r s')
    ?_ (fun u s' h => ?_) fun e s' h => ?_
  · refine ⟨?_, hroom⟩
    cases hr : ((makeRoomLocked T (2 * s.experts.entries.length + 7) destination m.sizeBytes
      [m.policyId]).exec s).1 with
    | error e => exact ⟨e, rfl⟩
    | ok u => exact absurd ⟨m, hk, hgen, not_not.mp hl, hr⟩ hno
  · obtain ⟨⟨e, h⟩, -⟩ := h
    cases h
  · exact ⟨⟨e, rfl⟩, Chain.mono h.2 fun _ h => h.carries⟩

theorem wp_moveExpert_carries [SelectsOffered π] (W : Wired s)
    (hno : ¬ CopiesGenerically T s k destination) :
    wp (moveExpert T k destination) (Carried T s) s := by
  cases hk : s.experts.lookup k with
  | none =>
    unfold moveExpert
    rw [wp_bind, wp_require_none hk]
    exact Chain.refl
  | some m =>
    by_cases hgen : Untransferred m.location destination
    · unfold moveExpert
      rw [wp_bind, wp_require hk]
      exact wp_mono (wp_move_uncopied W hk hgen hno) fun _ _ h => h.2
    · exact wp_mono (wp_moveExpert W) fun _ _ h => Chain.mono h fun _ h => h.carries hk hgen

theorem wp_requestExpert_carries [SelectsOffered π] (W : Wired s)
    (hno : ¬ CopiesGenerically T s k .Vram) :
    wp (requestExpert T k) (Carried T s) s := by
  cases hk : s.experts.lookup k with
  | none =>
    unfold requestExpert
    rw [wp_bind, wp_require_none hk]
    exact Chain.refl
  | some m =>
    by_cases hgen : Untransferred m.location .Vram
    · unfold requestExpert
      rw [wp_bind, wp_require hk]
      refine wp_seq (wp_move_uncopied W hk hgen hno) (fun _ s' h => ?_) fun e s' h => h.2
      obtain ⟨⟨e, h⟩, -⟩ := h
      cases h
    · refine wp_mono (wp_requestExpert W) fun _ _ h => Chain.mono h fun e he => ?_
      rcases he with h | rfl | ⟨_, _, rfl⟩
      · exact h.carries hk hgen
      · rfl
      · rfl

theorem wp_acquireResidentExpert_carries [SelectsOffered π] (W : Wired s)
    (hno : ¬ CopiesGenerically T s k .Vram) :
    wp (acquireResidentExpert T k) (Carried T s) s := by
  cases hk : s.experts.lookup k with
  | none =>
    unfold acquireResidentExpert
    rw [wp_bind, wp_require_none hk]
    exact Chain.refl
  | some m =>
    by_cases hgen : Untransferred m.location .Vram
    · have hne : m.location ≠ .Vram := by
        rcases hgen with ⟨hl, -⟩ | ⟨-, h⟩
        · rw [hl]
          decide
        · cases h
      unfold acquireResidentExpert
      rw [wp_bind, wp_require hk]
      show wp ((if _ then _ else _) >>= _) _ s
      rw [if_pos (.inl hne)]
      refine wp_seq (wp_move_uncopied W hk hgen hno) (fun _ s' h => ?_) fun e s' h => h.2
      obtain ⟨⟨e, h⟩, -⟩ := h
      cases h
    · refine wp_mono (wp_acquireResidentExpert W) fun _ _ h => h.chain.mono fun e he => ?_
      rcases he with h | rfl
      · exact h.carries hk hgen
      · rfl

end

def SystemPlaced (store : ExpertKey → Bytes) (s : ManagerSystem π) : Prop :=
  PlacedInv (s.payload store) s.manager

/-- an adoption, with the user's note of it -/
theorem SystemPlaced.adopted [SelectsOffered π] {s : ManagerSystem π} (hT : Faithful store T)
    (I : SystemPlaced store s) {k : ExpertKey} {tier : MemoryTier} {b : Option Buffer}
    {x : Code π Unit} (hx : wp x (Adopted T s.manager k tier b) s.manager) :
    wp (onManager x >>= fun _ => update (noteAdopted k tier b s.manager))
      (fun _ s' => SystemPlaced store s') s := by
  have hPay : ∀ k, s.payload store k (store k) := fun k => .inl rfl
  have hroom : ∀ {m : ManagedExpert} {t}, Chain (Step T) (RoomEffect π tier [m.policyId])
      s.manager t → PlacedInv (s.payload store) t := fun hc =>
    chain_placed hc hT hPay (fun e he => he.carries) I
  have hnoted : ∀ {Pay' : ExpertKey → Bytes → Prop} {t t' : ExpertManager π},
      (∀ k, Pay' k (store k)) → Step T (.noted k) t t' → PlacedInv Pay' t → PlacedInv Pay' t' :=
    fun hp h => chain_placed (Chain.single (P := (· = .noted k)) rfl h) hT hp fun e he => by
      cases he
      rfl
  refine wp_seq (R := fun r (s' : ManagerSystem π) => Adopted T s.manager k tier b r s'.manager ∧
    s' = { s with manager := s'.manager }) (wp_onManager.mpr (wp_mono hx fun r t h => ⟨h, rfl⟩))
    (fun _ s' h => ?_) fun e s' h => ?_
  · obtain ⟨h, hs'⟩ := h
    rw [wp_update]
    unfold SystemPlaced
    rw [noteAdopted_manager]
    rcases h with ⟨⟨_, h⟩, -⟩ | ⟨hn, m, hk, hloc⟩ | ⟨m, hk, hloc, -, b', s₁, s₂, rfl, hc, ha, hn⟩
    · cases h
    · have hsame : (noteAdopted k tier b s.manager s').payload store = s.payload store := by
        unfold ManagerSystem.payload noteAdopted
        rw [hk, hs']
        cases b with
        | none => rfl
        | some b => simp only [if_pos hloc]
      rw [hsame]
      exact hnoted hPay hn I
    · have hnew : (noteAdopted k tier (some b') s.manager s').adopted =
          s.adopted.insert k b'.bytes := by
        unfold noteAdopted
        rw [hk, hs']
        simp only [if_neg hloc]
      have I₁ := hroom hc
      refine hnoted (fun _ => .inl rfl) hn ⟨ha.wired I₁.wired, ha.hasTransfers.trans I₁.transfers,
        ha.placed_adopted (.inr ?_) (fun a hne x hx => ?_) I₁.placed⟩
      · rw [hnew, AList.lookup_insert]
      · unfold ManagerSystem.payload at hx ⊢
        rwa [hnew, AList.lookup_insert_ne hne]
  · obtain ⟨h, hs'⟩ := h
    unfold SystemPlaced
    have hpay : s'.payload store = s.payload store := by rw [hs']; rfl
    rw [hpay]
    rcases h with ⟨-, h⟩ | ⟨hn, -⟩ | ⟨m, -, -, -, hc⟩
    · rw [h]
      exact I
    · exact hnoted hPay hn I
    · exact hroom hc

theorem next_placed [SelectsOffered π] {s : ManagerSystem π} {op : Op} (hT : Faithful store T)
    (hok : AvoidsGenericCopy s op T) (I : SystemPlaced store s) :
    SystemPlaced store (next s op T) := by
  have hPay : ∀ k, s.payload store k (store k) := fun k => .inl rfl
  have carried : op.adopts = false →
      wp (exec T op) (fun r s' => Carried T s.manager r s'.manager) s →
      SystemPlaced store (next s op T) := fun hp h => by
    have hc := chain_placed h hT hPay (fun _ he => he) I
    unfold SystemPlaced ManagerSystem.payload
    rw [next_adopted T s hp]
    exact hc
  have plain : op.adopts = false → (∀ e, op.allows s.manager e → e.carries) →
      SystemPlaced store (next s op T) := fun hp he =>
    carried hp (wp_mono (exec_effects op s I.wired) fun _ _ h => Chain.mono h he)
  cases op with
  | registerExpert x =>
    refine plain rfl fun e he => ?_
    rcases he with rfl | rfl | h
    · rfl
    · rfl
    · exact h.carries (fun _ h => by cases h) fun _ h => by cases h
  | requestExpert target =>
    refine carried rfl (wp_target (fun k hr => ?_) fun _ => Chain.refl)
    exact wp_manager_then (wp_requestExpert_carries I.wired (hok k hr)) fun _ _ h => h
  | moveExpert target destination =>
    refine carried rfl (wp_target (fun k hr => ?_) fun _ => Chain.refl)
    exact wp_onManager.mpr (wp_moveExpert_carries I.wired (hok k hr))
  | evictUntilWithin tier bound => exact plain rfl fun e he => he.carries
  | adoptDeviceWeights k b => exact I.adopted hT (wp_adoptDeviceWeights (T := T) I.wired)
  | adoptHostWeights k b => exact I.adopted hT (wp_adoptHostWeights (T := T) I.wired)
  | prepareResidency k destination =>
    refine plain rfl fun e he => ?_
    obtain ⟨m, -, h⟩ := he
    exact h.carries
  | acquireResidentExpert k =>
    refine carried rfl (wp_manager_then (wp_acquireResidentExpert_carries I.wired hok)
      fun lease s' h => ?_)
    rw [wp_update, hold_manager]
    exact h
  | acquireHostExpert k =>
    refine plain rfl fun e he => ?_
    rcases he with ⟨m, -, h⟩ | rfl
    · exact h.carries (fun h => by cases h) fun h => by cases h
    · rfl
  | releaseLease i =>
    refine plain rfl fun e he => ?_
    obtain ⟨k, rfl⟩ := he
    rfl
  | updatePrediction k p c =>
    refine plain rfl fun e he => ?_
    cases he
    rfl

omit [CachePolicy π] in
theorem systemPlaced_start (vram ram : Nat) (policy : π) (store : ExpertKey → Bytes) :
    SystemPlaced store (ManagerSystem.start vram ram policy true) :=
  ⟨wired_start vram ram policy true, rfl, fun _ _ h => by cases h⟩

/-- in every run that asks nothing in pinned memory into VRAM nor the other way round, every
expert's bytes are where its location says, and are its stored or its adopted ones -/
theorem run_placed [SelectsOffered π] (store : ExpertKey → Bytes) (vram ram : Nat) (policy : π)
    (ops : List (Op × Transfers)) (hT : ∀ o ∈ ops, Faithful store o.2)
    (h : Meets AvoidsGenericCopy (ManagerSystem.start vram ram policy true) ops) :
    AllPlaced ((run (ManagerSystem.start vram ram policy true) ops).payload store)
      (run (ManagerSystem.start vram ram policy true) ops).manager := by
  refine (run_keeps (C := fun s op T => Faithful store T ∧ AvoidsGenericCopy s op T)
    (I := SystemPlaced store) (fun s op T hok hI => next_placed hok.1 hok.2 hI) ops _ ?_
    (systemPlaced_start vram ram policy store)).placed
  exact meets_and (meets_of_forall (C := fun _ _ T => Faithful store T)
    (fun _ op T hm => hT (op, T) hm) _) h

/-! ## pinned memory to VRAM -/

/-- four bytes for every expert -/
def sampleStore : ExpertKey → Bytes := fun _ => [1, 2, 3, 4]

/-- transfers that deliver the stored bytes, or those of their source, and fail without one -/
def copying (store : ExpertKey → Bytes) : Transfers := fun n r =>
  match r.source, r.destination, r.hostBuffer, r.sourceDeviceBuffer with
  | .Nvme, .Ram, _, _ => .ok
    { status := .Completed, buffer := some ⟨n, store (r.layerId, r.expertId), true⟩ }
  | .Ram, .Vram, some w, _ => .ok
    { status := .Completed, deviceBuffer := some ⟨n, w.bytes, true⟩ }
  | .Vram, .Ram, _, some d => .ok
    { status := .Completed, buffer := some ⟨n, d.bytes, true⟩ }
  | _, _, _, _ => .error (.invalidArgument "transfer")

theorem copying_faithful (store : ExpertKey → Bytes) : Faithful store (copying store) where
  load n r res b h _ hs hd hb := by
    unfold copying at h
    rw [hs, hd] at h
    obtain rfl := Except.ok.inj h
    obtain rfl := Option.some.inj hb
    rfl
  upload n r res b h _ hs hd hb := by
    unfold copying at h
    rw [hs, hd] at h
    cases hw : r.hostBuffer with
    | none =>
      rw [hw] at h
      cases h
    | some w =>
      rw [hw] at h
      obtain rfl := Except.ok.inj h
      obtain rfl := Option.some.inj hb
      exact ⟨w, rfl, rfl⟩
  download n r res b h _ hs hd hb := by
    unfold copying at h
    rw [hs, hd] at h
    cases hw : r.sourceDeviceBuffer with
    | none =>
      rw [hw] at h
      cases h
    | some d =>
      rw [hw] at h
      obtain rfl := Except.ok.inj h
      obtain rfl := Option.some.inj hb
      exact ⟨d, rfl, rfl⟩

/-- registered in `tier`, then moved to VRAM -/
def placementRun (tier : MemoryTier) : List (Op × Transfers) :=
  [(.registerExpert { sampleExpert with location := tier }, copying sampleStore),
    (.moveExpert (.layered (0, 0)) .Vram, copying sampleStore)]

/-- leased there, and then asked into pinned memory, which is refused -/
def leasedRun : List (Op × Transfers) :=
  placementRun .Ram ++ [(.acquireResidentExpert (0, 0), copying sampleStore),
    (.moveExpert (.layered (0, 0)) .PinnedRam, copying sampleStore)]

theorem run_placed_sample :
    AllPlaced ((run (ManagerSystem.start 8 8 ({} : LruCachePolicy) true) leasedRun).payload
        sampleStore)
      (run (ManagerSystem.start 8 8 ({} : LruCachePolicy) true) leasedRun).manager := by
  have hfaithful : ∀ o ∈ leasedRun, Faithful sampleStore o.2 := fun o ho => by
    rcases List.mem_append.mp ho with ho | ho <;> rcases List.mem_pair.mp ho with rfl | rfl <;>
      exact copying_faithful sampleStore
  refine run_placed sampleStore 8 8 ({} : LruCachePolicy) leasedRun hfaithful
    ⟨trivial, ?_, ?_, ?_, trivial⟩
  · rintro k hk ⟨m, hm, hgen, -⟩
    obtain rfl := Except.ok.inj hk
    obtain rfl := Option.some.inj hm
    exact absurd hgen (by decide)
  · rintro ⟨m, hm, hgen, -⟩
    obtain rfl := Option.some.inj hm
    exact absurd hgen (by decide)
  · rintro k hk ⟨m, hm, -, hl, -⟩
    obtain rfl := Except.ok.inj hk
    obtain rfl := Option.some.inj hm
    exact absurd hl (by decide)

/-- an expert of pinned memory moved to VRAM has a host buffer there and no device buffer -/
theorem not_placed_after_pinned_to_vram :
    ¬ ∀ ops : List (Op × Transfers), (∀ o ∈ ops, Faithful sampleStore o.2) →
      AllPlaced ((run (ManagerSystem.start 8 8 ({} : LruCachePolicy) true) ops).payload sampleStore)
        (run (ManagerSystem.start 8 8 ({} : LruCachePolicy) true) ops).manager := by
  intro h
  have hp := h (placementRun .PinnedRam) fun o ho => by
    rcases List.mem_pair.mp ho with rfl | rfl <;> exact copying_faithful sampleStore
  have hend : ((run (ManagerSystem.start 8 8 ({} : LruCachePolicy) true)
      (placementRun .PinnedRam)).manager.experts.lookup (0, 0)).map
        (fun m => (m.location, m.weights.isSome)) = some (.Vram, true) := by decide
  obtain ⟨m, hk, hm⟩ := Option.map_eq_some_iff.mp hend
  have hplaced := hp (0, 0) m hk
  unfold Placed at hplaced
  injection hm with hloc hw
  rw [hloc] at hplaced
  rw [hplaced.1] at hw
  cases hw

end ExpertManager

end HyperMoE
