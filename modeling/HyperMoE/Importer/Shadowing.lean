import HyperMoE.Importer.QwenImporter
import HyperMoE.Lib.Slots
import HyperMoE.Models.Soundness

/-!
# Tensors that read as one role

Two names that differ by leading zeros read as one layer and one role.  The loop over the tensors
refuses the second one for some roles, `validate` refuses it for the router, and for the others the
last one wins.

* `Role`, `Slot`       what a name stands for;
* `reads`              a tensor's name reads as a slot;
* `Tables.slot`        the name that the tables have for a slot;
* `Added`              what one turn of the loop does to the slots;
* `Loop`               the tables after the loop: every slot holds the last tensor that reads as it;
* `Unshadowed`         one tensor for each role, and the manifest names it;
* `Distinguished`      when an accepted checkpoint has that.
-/

namespace HyperMoE.Importer.Qwen

open Lib Lib.Fallible Metadata Models Tensor

/-! ## roles -/

inductive LayerRole where
  | query
  | key
  | value
  | output
  | queryNorm
  | keyNorm
  | inputNorm
  | postAttentionNorm
  | router
  deriving DecidableEq, Repr

inductive ExpertRole where
  | gate
  | up
  | down
  deriving DecidableEq, Repr

inductive FusedRole where
  | gateUp
  | down
  deriving DecidableEq, Repr

inductive Role where
  | layer (r : LayerRole)
  | expert (e : UInt32) (r : ExpertRole)
  | fused (r : FusedRole)
  deriving DecidableEq, Repr

/-- a role of a layer -/
abbrev Slot := UInt32 × Role

/-- the roles whose tensor is overwritten by the next one -/
def LayerRole.overwritten : LayerRole → Bool
  | .query | .key | .value | .output | .inputNorm | .postAttentionNorm => true
  | .queryNorm | .keyNorm | .router => false

/-- the roles that the loop fills once -/
def Role.checked : Role → Bool
  | .layer .queryNorm | .layer .keyNorm | .expert _ _ | .fused _ => true
  | .layer _ => false

def attentionRole (projection : Text) : LayerRole :=
  if projection = ascii "q_proj" then .query
  else if projection = ascii "k_proj" then .key
  else if projection = ascii "v_proj" then .value
  else .output

def expertRole (projection : Text) : ExpertRole :=
  if projection = ascii "gate_proj" then .gate
  else if projection = ascii "up_proj" then .up
  else .down

def ParsedTensorName.role (p : ParsedTensorName) : Role :=
  match p.kind with
  | .Individual => .expert (p.expert.getD 0) (expertRole p.projection)
  | .FusedGateUp => .fused .gateUp
  | .FusedDown => .fused .down
  | .Router => .layer .router
  | .Attention => .layer (attentionRole p.projection)
  | .AttentionNorm => .layer (if p.projection = ascii "q_norm" then .queryNorm else .keyNorm)
  | .InputNorm => .layer .inputNorm
  | .PostAttentionNorm => .layer .postAttentionNorm

def reads (tensor : ManifestTensor) (s : Slot) : Bool :=
  match parseName tensor.name with
  | .ok (some p) => (p.layer, p.role) = s
  | _ => false

theorem reads_of_parse {tensor : ManifestTensor} {p : ParsedTensorName} {s : Slot}
    (h : parseName tensor.name = .ok (some p)) : reads tensor s = decide ((p.layer, p.role) = s) := by
  unfold reads
  rw [h]

theorem reads_of_none {tensor : ManifestTensor} (h : parseName tensor.name = .ok none) (s : Slot) :
    reads tensor s = false := by
  unfold reads
  rw [h]

theorem reads_of_matchName {tensor : ManifestTensor} {name : Text} (hname : tensor.name = name)
    (h : matchName name = none) (s : Slot) : reads tensor s = false := by
  refine reads_of_none ?_ s
  unfold parseName
  rw [hname, h]

/-- a tensor that is read has a name -/
theorem name_ne_nil {tensor : ManifestTensor} {s : Slot} (h : reads tensor s = true) :
    tensor.name ≠ [] := by
  intro hnil
  rw [reads_of_matchName hnil (by decide)] at h
  exact nomatch h

/-! ## the names of a mapping -/

/-- the name that a layer's mapping has for a role -/
def layerName (m : ManifestLayerMapping) : LayerRole → Text
  | .query => m.queryProjection.tensorName
  | .key => m.keyProjection.tensorName
  | .value => m.valueProjection.tensorName
  | .output => m.outputProjection.tensorName
  | .queryNorm => m.queryNormTensor
  | .keyNorm => m.keyNormTensor
  | .inputNorm => m.inputNormTensor
  | .postAttentionNorm => m.postAttentionNormTensor
  | .router => m.routerTensor

def expertName (m : ManifestExpertMapping) : ExpertRole → Text
  | .gate => m.gate.tensorName
  | .up => m.up.tensorName
  | .down => m.down.tensorName

/-- the mapping with another name for the role -/
def renamed (m : ManifestLayerMapping) (name : Text) : LayerRole → ManifestLayerMapping
  | .query => { m with queryProjection := { tensorName := name } }
  | .key => { m with keyProjection := { tensorName := name } }
  | .value => { m with valueProjection := { tensorName := name } }
  | .output => { m with outputProjection := { tensorName := name } }
  | .queryNorm => { m with queryNormTensor := name }
  | .keyNorm => { m with keyNormTensor := name }
  | .inputNorm => { m with inputNormTensor := name }
  | .postAttentionNorm => { m with postAttentionNormTensor := name }
  | .router => { m with routerTensor := name }

def relocated (m : ManifestExpertMapping) (location : ProjectionLocation) :
    ExpertRole → ManifestExpertMapping
  | .gate => { m with gate := location }
  | .up => { m with up := location }
  | .down => { m with down := location }

theorem layerName_renamed (m : ManifestLayerMapping) (name : Text) (r r' : LayerRole) :
    layerName (renamed m name r) r' = if r = r' then name else layerName m r' := by
  cases r <;> cases r' <;> rfl

theorem expertName_relocated (m : ManifestExpertMapping) (location : ProjectionLocation)
    (r r' : ExpertRole) : expertName (relocated m location r) r' =
      if r = r' then location.tensorName else expertName m r' := by
  cases r <;> cases r' <;> rfl

theorem renamed_layerId (m : ManifestLayerMapping) (name : Text) (r : LayerRole) :
    (renamed m name r).layerId = m.layerId := by
  cases r <;> rfl

theorem relocated_identity (m : ManifestExpertMapping) (location : ProjectionLocation)
    (r : ExpertRole) : (relocated m location r).layerId = m.layerId ∧
      (relocated m location r).expertId = m.expertId := by
  cases r <;> exact ⟨rfl, rfl⟩

namespace Tables

variable {t : Tables}

def fused (t : Tables) : FusedRole → Table UInt32 ManifestTensor
  | .gateUp => t.fusedGateUp
  | .down => t.fusedDown

def slot (t : Tables) : Slot → Text
  | (layer, .layer r) => layerName (t.layer layer) r
  | (layer, .expert e r) => expertName (t.expert layer e) r
  | (layer, .fused r) => ((t.fused r).lookup layer).elim [] ManifestTensor.name

theorem layer_setLayer (mapping : ManifestLayerMapping) (l : UInt32) :
    (t.setLayer mapping).layer l = if l = mapping.layerId then mapping else t.layer l := by
  unfold layer setLayer
  dsimp only
  rw [Table.lookup_insert']
  split
  · next h =>
    subst h
    rfl
  · rfl

theorem expert_setExpert (mapping : ManifestExpertMapping) (l e : UInt32) :
    (t.setExpert mapping).expert l e =
      if (l, e) = (mapping.layerId, mapping.expertId) then mapping else t.expert l e := by
  unfold expert setExpert
  dsimp only
  rw [Table.lookup_insert']
  split
  · next h =>
    obtain ⟨rfl, rfl⟩ := Prod.mk.inj h
    rfl
  · rfl

theorem slot_renamed (l₀ : UInt32) (name : Text) (r : LayerRole) (s : Slot) :
    (t.setLayer (renamed (t.layer l₀) name r)).slot s =
      if (l₀, Role.layer r) = s then name else t.slot s := by
  obtain ⟨l, role⟩ := s
  cases role with
  | layer r' =>
    show layerName ((t.setLayer _).layer l) r' = if _ then name else layerName (t.layer l) r'
    rw [layer_setLayer, renamed_layerId]
    by_cases hl : l = l₀
    · subst hl
      rw [if_pos (show l = (t.layer l).layerId from rfl), layerName_renamed]
      by_cases hr : r = r'
      · rw [if_pos hr, if_pos (by rw [hr])]
      · rw [if_neg hr, if_neg (by simpa using hr)]
    · rw [if_neg (show ¬ l = (t.layer l₀).layerId from hl),
        if_neg (by simpa using fun h => absurd h.symm hl)]
  | expert e r' => rw [if_neg (by simp)]; rfl
  | fused r' => rw [if_neg (by simp)]; cases r' <;> rfl

theorem slot_relocated (l₀ e₀ : UInt32) (location : ProjectionLocation) (r : ExpertRole) (s : Slot) :
    (t.setExpert (relocated (t.expert l₀ e₀) location r)).slot s =
      if (l₀, Role.expert e₀ r) = s then location.tensorName else t.slot s := by
  obtain ⟨l, role⟩ := s
  cases role with
  | layer r' => rw [if_neg (by simp)]; rfl
  | expert e r' =>
    show expertName ((t.setExpert _).expert l e) r' =
      if _ then location.tensorName else expertName (t.expert l e) r'
    obtain ⟨hlayer, hexpert⟩ := relocated_identity (t.expert l₀ e₀) location r
    rw [expert_setExpert, hlayer, hexpert]
    by_cases hk : (l, e) = (l₀, e₀)
    · obtain ⟨rfl, rfl⟩ := Prod.mk.inj hk
      rw [if_pos (show (l, e) = ((t.expert l e).layerId, (t.expert l e).expertId) from rfl),
        expertName_relocated]
      by_cases hr : r = r'
      · rw [if_pos hr, if_pos (by rw [hr])]
      · rw [if_neg hr, if_neg (by simpa using hr)]
    · rw [if_neg (show ¬ (l, e) = ((t.expert l₀ e₀).layerId, (t.expert l₀ e₀).expertId) from hk),
        if_neg (by
          rintro ⟨⟩
          exact hk rfl)]
  | fused r' => rw [if_neg (by simp)]; cases r' <;> rfl

theorem slot_relevant (name : Text) (s : Slot) : (t.relevant name).slot s = t.slot s := by
  obtain ⟨l, role⟩ := s
  cases role with
  | fused r => cases r <;> rfl
  | _ => rfl

end Tables

/-! ## one turn of the loop -/

/-- the entry that a router tensor adds -/
def routerOf (tensor : ManifestTensor) : Option ManifestRouterTensor :=
  match parseName tensor.name with
  | .ok (some p) => if p.kind = .Router then some ⟨p.layer, tensor.name⟩ else none
  | _ => none

theorem role_router {p : ParsedTensorName} : p.role = .layer .router ↔ p.kind = .Router := by
  unfold ParsedTensorName.role attentionRole
  cases p.kind with
  | Attention => simp only [reduceCtorEq, iff_false]; split_ifs <;> simp
  | AttentionNorm => simp only [reduceCtorEq, iff_false]; split_ifs <;> simp
  | _ => simp

/-- every entry has the number of its key -/
structure Tables.Keyed (t : Tables) : Prop where
  layers : ∀ l m, t.layerMappings.lookup l = some m → m.layerId = l
  experts : ∀ k m, t.individual.lookup k = some m → (m.layerId, m.expertId) = k

theorem Tables.keyed_relevant {t : Tables} (h : t.Keyed) (name : Text) : (t.relevant name).Keyed :=
  ⟨h.layers, h.experts⟩

theorem Tables.keyed_setLayer {t : Tables} (h : t.Keyed) (mapping : ManifestLayerMapping) :
    (t.setLayer mapping).Keyed := by
  refine ⟨fun l m hm => ?_, h.experts⟩
  replace hm : (t.layerMappings.insert mapping.layerId mapping).lookup l = some m := hm
  rw [Table.lookup_insert'] at hm
  split at hm
  · next hl =>
    rw [← Option.some.inj hm]
    exact hl.symm
  · exact h.layers l m hm

theorem Tables.keyed_setExpert {t : Tables} (h : t.Keyed) (mapping : ManifestExpertMapping) :
    (t.setExpert mapping).Keyed := by
  refine ⟨h.layers, fun k m hm => ?_⟩
  replace hm : (t.individual.insert (mapping.layerId, mapping.expertId) mapping).lookup k =
    some m := hm
  rw [Table.lookup_insert'] at hm
  split at hm
  · next hk =>
    rw [← Option.some.inj hm]
    exact hk.symm
  · exact h.experts k m hm

/-- what a turn does to the tables -/
structure Added (config : ModelConfig) (tensor : ManifestTensor) (t t' : Tables) : Prop where
  slots : ∀ s, t'.slot s = if reads tensor s then tensor.name else t.slot s
  checked : ∀ s : Slot, s.2.checked = true → reads tensor s = true → t.slot s = []
  routers : t'.routers = t.routers ++ (routerOf tensor).toList
  keyed : t.Keyed → t'.Keyed
  bounded : ∀ s, reads tensor s = true → s.1.toUInt64 < config.layerCount

section
variable {c : Checkpoint} {config : ModelConfig} {tensor : ManifestTensor} {t t' : Tables}
  {p : ParsedTensorName}

theorem routerOf_eq (h : parseName tensor.name = .ok (some p)) :
    routerOf tensor = if p.kind = .Router then some ⟨p.layer, tensor.name⟩ else none := by
  unfold routerOf
  rw [h]

/-- a tensor that reads as nothing -/
theorem added_of_unread (hnone : ∀ s, reads tensor s = false) (hrouter : routerOf tensor = none)
    (hslots : ∀ s, t'.slot s = t.slot s) (hrouters : t'.routers = t.routers)
    (hkeyed : t.Keyed → t'.Keyed) : Added config tensor t t' where
  slots s := by
    rw [hnone s]
    exact hslots s
  checked s _ h := absurd ((hnone s).symm.trans h) (by decide)
  routers := by rw [hrouters, hrouter, Option.toList_none, List.append_nil]
  keyed := hkeyed
  bounded s h := absurd ((hnone s).symm.trans h) (by decide)

/-- a tensor that reads as one slot, which gets its name -/
theorem added_of_read (h : parseName tensor.name = .ok (some p))
    (hbound : p.layer.toUInt64 < config.layerCount)
    (hslots : ∀ s, t'.slot s = if (p.layer, p.role) = s then tensor.name else t.slot s)
    (hchecked : p.role.checked = true → t.slot (p.layer, p.role) = [])
    (hrouters : t'.routers = t.routers ++ (routerOf tensor).toList)
    (hkeyed : t.Keyed → t'.Keyed) : Added config tensor t t' where
  slots s := by
    rw [hslots s, reads_of_parse h]
    simp only [decide_eq_true_eq]
  checked s hs hr := by
    rw [reads_of_parse h, decide_eq_true_eq] at hr
    subst hr
    exact hchecked hs
  routers := hrouters
  keyed := hkeyed
  bounded s hr := by
    rw [reads_of_parse h, decide_eq_true_eq] at hr
    subst hr
    exact hbound

theorem routers_same (h : parseName tensor.name = .ok (some p)) (hkind : p.kind ≠ .Router) :
    t.routers = t.routers ++ (routerOf tensor).toList := by
  rw [routerOf_eq h, if_neg hkind, Option.toList_none, List.append_nil]

/-- the name goes into one field of the layer's mapping -/
theorem added_layer {r : LayerRole} (h : parseName tensor.name = .ok (some p))
    (hbound : p.layer.toUInt64 < config.layerCount) (hkind : p.kind ≠ .Router)
    (hrole : p.role = .layer r)
    (hchecked : (Role.layer r).checked = true → layerName (t.layer p.layer) r = []) :
    Added config tensor t ((t.relevant tensor.name).setLayer
      (renamed ((t.relevant tensor.name).layer p.layer) tensor.name r)) := by
  refine added_of_read h hbound (fun s => ?_) (fun hc => ?_) (routers_same h hkind)
    fun hk => Tables.keyed_setLayer (Tables.keyed_relevant hk tensor.name) _
  · rw [Tables.slot_renamed, hrole, Tables.slot_relevant]
  · rw [hrole] at hc ⊢
    exact hchecked hc

theorem returns_addRouter (h : parseName tensor.name = .ok (some p))
    (hbound : p.layer.toUInt64 < config.layerCount) (hkind : p.kind = .Router) :
    Returns (addRouter config p.layer tensor (t.relevant tensor.name)) (Added config tensor t) := by
  refine Returns.then fun expected => Returns.guard fun _ => Returns.pure ?_
  have hrole := role_router.mpr hkind
  have hk' := fun hk : t.Keyed => Tables.keyed_setLayer (Tables.keyed_relevant hk tensor.name)
    (renamed ((t.relevant tensor.name).layer p.layer) tensor.name .router)
  refine added_of_read h hbound (fun s => ?_) (fun hc => ?_) ?_
    fun hk => ⟨(hk' hk).layers, (hk' hk).experts⟩
  · have hslot := Tables.slot_renamed (t := t.relevant tensor.name) p.layer tensor.name .router s
    rw [Tables.slot_relevant, ← hrole] at hslot
    rw [← hslot]
    obtain ⟨l, role⟩ := s
    cases role with
    | fused r => cases r <;> rfl
    | _ => rfl
  · rw [hrole] at hc
    exact nomatch hc
  · rw [routerOf_eq h, if_pos hkind]
    rfl

theorem added_attention (h : parseName tensor.name = .ok (some p))
    (hbound : p.layer.toUInt64 < config.layerCount) (hkind : p.kind = .Attention) :
    Added config tensor t
      (addAttention p.projection p.layer tensor (t.relevant tensor.name)) := by
  have hrole : p.role = .layer (attentionRole p.projection) := by
    unfold ParsedTensorName.role
    rw [hkind]
  have hne : p.kind ≠ .Router := by rw [hkind]; decide
  unfold addAttention
  unfold attentionRole at hrole
  dsimp only
  split_ifs with hq hk hv
  · rw [if_pos hq] at hrole
    exact added_layer h hbound hne hrole fun hc => nomatch hc
  · rw [if_neg hq, if_pos hk] at hrole
    exact added_layer h hbound hne hrole fun hc => nomatch hc
  · rw [if_neg hq, if_neg hk, if_pos hv] at hrole
    exact added_layer h hbound hne hrole fun hc => nomatch hc
  · rw [if_neg hq, if_neg hk, if_neg hv] at hrole
    exact added_layer h hbound hne hrole fun hc => nomatch hc

theorem returns_addAttentionNorm (h : parseName tensor.name = .ok (some p))
    (hbound : p.layer.toUInt64 < config.layerCount) (hkind : p.kind = .AttentionNorm) :
    Returns (addAttentionNorm c.config p.projection p.layer tensor (t.relevant tensor.name))
      (Added config tensor t) := by
  have hrole : p.role =
      .layer (if p.projection = ascii "q_norm" then .queryNorm else .keyNorm) := by
    unfold ParsedTensorName.role
    rw [hkind]
  have hne : p.kind ≠ .Router := by rw [hkind]; decide
  refine Returns.then fun dimension => Returns.then fun expected => Returns.guard fun _ => ?_
  split
  · next hq =>
    rw [if_pos hq] at hrole
    refine Returns.guard fun hempty => Returns.pure ?_
    exact added_layer h hbound hne hrole fun _ => not_not.mp hempty
  · next hq =>
    rw [if_neg hq] at hrole
    refine Returns.guard fun hempty => Returns.pure ?_
    exact added_layer h hbound hne hrole fun _ => not_not.mp hempty

/-- the name goes into one field of the expert's mapping, which was empty -/
theorem added_expert {r : ExpertRole} {location : ProjectionLocation}
    (h : parseName tensor.name = .ok (some p)) (hbound : p.layer.toUInt64 < config.layerCount)
    (hkind : p.kind = .Individual) (hr : expertRole p.projection = r)
    (hname : location.tensorName = tensor.name)
    (hempty : expertName (t.expert p.layer (p.expert.getD 0)) r = []) :
    Added config tensor t ((t.relevant tensor.name).setExpert
      (relocated ((t.relevant tensor.name).expert p.layer (p.expert.getD 0)) location r)) := by
  have hrole : p.role = .expert (p.expert.getD 0) r := by
    unfold ParsedTensorName.role
    rw [hkind, ← hr]
  refine added_of_read h hbound (fun s => ?_) (fun _ => ?_)
    (routers_same h (by rw [hkind]; decide))
    fun hk => Tables.keyed_setExpert (Tables.keyed_relevant hk tensor.name) _
  · rw [Tables.slot_relocated, hrole, Tables.slot_relevant, hname]
  · rw [hrole]
    exact hempty

theorem returns_wholeProjection (tensor : ManifestTensor) (expected : Shape) :
    Returns (wholeProjection tensor expected) fun location => location.tensorName = tensor.name :=
  Returns.guard fun _ => Returns.pure rfl

theorem returns_addIndividual (h : parseName tensor.name = .ok (some p))
    (hbound : p.layer.toUInt64 < config.layerCount) (hkind : p.kind = .Individual) :
    Returns (addIndividual config p.projection p.layer (p.expert.getD 0) tensor
      (t.relevant tensor.name)) (Added config tensor t) := by
  refine Returns.guard fun _ => Returns.then fun upShape => Returns.then fun downShape => ?_
  refine (returns_wholeProjection tensor _).bind fun location hname => ?_
  split
  · next hgate =>
    refine Returns.guard fun hempty => Returns.pure ?_
    exact added_expert (r := .gate) h hbound hkind (if_pos hgate) hname (not_not.mp hempty)
  · next hgate =>
    split
    · next hup =>
      refine Returns.guard fun hempty => Returns.pure ?_
      exact added_expert (r := .up) h hbound hkind ((if_neg hgate).trans (if_pos hup)) hname
        (not_not.mp hempty)
    · next hup =>
      refine Returns.guard fun hempty => Returns.pure ?_
      exact added_expert (r := .down) h hbound hkind ((if_neg hgate).trans (if_neg hup)) hname
        (not_not.mp hempty)

theorem slot_emplaced {r : FusedRole} (hfused : t'.fused r = (t.fused r).insert p.layer tensor)
    (hother : ∀ r', r' ≠ r → t'.fused r' = t.fused r') (hlayers : t'.layerMappings = t.layerMappings)
    (hindividual : t'.individual = t.individual) (s : Slot) :
    t'.slot s = if (p.layer, Role.fused r) = s then tensor.name else t.slot s := by
  obtain ⟨l, role⟩ := s
  cases role with
  | layer r' =>
    rw [if_neg (by simp)]
    show layerName (t'.layer l) r' = layerName (t.layer l) r'
    unfold Tables.layer
    rw [hlayers]
  | expert e r' =>
    rw [if_neg (by simp)]
    show expertName (t'.expert l e) r' = expertName (t.expert l e) r'
    unfold Tables.expert
    rw [hindividual]
  | fused r' =>
    show ((t'.fused r').lookup l).elim [] ManifestTensor.name =
      if _ then tensor.name else ((t.fused r').lookup l).elim [] ManifestTensor.name
    by_cases hr : r' = r
    · subst hr
      rw [hfused, Table.lookup_insert']
      by_cases hl : l = p.layer
      · rw [if_pos hl, if_pos (by rw [hl])]
        rfl
      · rw [if_neg hl, if_neg (by simpa using Ne.symm hl)]
    · rw [hother r' hr, if_neg (by simpa using fun _ => Ne.symm hr)]

theorem returns_emplaceFused {table : Table UInt32 ManifestTensor} {layer : UInt32}
    (tensor : ManifestTensor) (what : String) : Returns (emplaceFused table layer tensor what)
      fun table' => table.lookup layer = none ∧ table' = table.insert layer tensor :=
  Returns.guard fun hnone => Returns.pure ⟨by simpa using hnone, rfl⟩

theorem added_fused {r : FusedRole} (h : parseName tensor.name = .ok (some p))
    (hbound : p.layer.toUInt64 < config.layerCount) (hkind : p.kind ≠ .Router)
    (hrole : p.role = .fused r) (hempty : (t.fused r).lookup p.layer = none)
    (hfused : t'.fused r = (t.fused r).insert p.layer tensor)
    (hother : ∀ r', r' ≠ r → t'.fused r' = t.fused r') (hlayers : t'.layerMappings = t.layerMappings)
    (hindividual : t'.individual = t.individual) (hrouters : t'.routers = t.routers) :
    Added config tensor t t' := by
  refine added_of_read h hbound (fun s => ?_) (fun _ => ?_)
    (hrouters.trans (routers_same h hkind)) fun hk => ⟨?_, ?_⟩
  · rw [hrole]
    exact slot_emplaced hfused hother hlayers hindividual s
  · rw [hrole]
    show ((t.fused r).lookup p.layer).elim [] ManifestTensor.name = []
    rw [hempty]
    rfl
  · rw [hlayers]
    exact hk.layers
  · rw [hindividual]
    exact hk.experts

theorem returns_addParsed (h : parseName tensor.name = .ok (some p))
    (hbound : p.layer.toUInt64 < config.layerCount) :
    Returns (addParsed c config p tensor (t.relevant tensor.name)) (Added config tensor t) := by
  unfold addParsed
  cases hkind : p.kind with
  | Router => exact returns_addRouter h hbound hkind
  | Attention => exact Returns.pure (added_attention h hbound hkind)
  | AttentionNorm => exact returns_addAttentionNorm h hbound hkind
  | Individual => exact returns_addIndividual h hbound hkind
  | InputNorm =>
    refine Returns.pure (added_layer (r := .inputNorm) h hbound (by rw [hkind]; decide) ?_
      fun hc => nomatch hc)
    unfold ParsedTensorName.role
    rw [hkind]
  | PostAttentionNorm =>
    refine Returns.pure (added_layer (r := .postAttentionNorm) h hbound (by rw [hkind]; decide) ?_
      fun hc => nomatch hc)
    unfold ParsedTensorName.role
    rw [hkind]
  | FusedGateUp =>
    refine (returns_emplaceFused tensor _).bind fun table htable => Returns.pure ?_
    refine added_fused (r := .gateUp) h hbound (by rw [hkind]; decide) ?_ htable.1 htable.2
      (fun r' hr => ?_) rfl rfl rfl
    · unfold ParsedTensorName.role
      rw [hkind]
    · cases r' with
      | gateUp => exact absurd rfl hr
      | down => rfl
  | FusedDown =>
    refine (returns_emplaceFused tensor _).bind fun table htable => Returns.pure ?_
    refine added_fused (r := .down) h hbound (by rw [hkind]; decide) ?_ htable.1 htable.2
      (fun r' hr => ?_) rfl rfl rfl
    · unfold ParsedTensorName.role
      rw [hkind]
    · cases r' with
      | gateUp => rfl
      | down => exact absurd rfl hr

theorem unread_of_matchName {name : Text} (hname : tensor.name = name)
    (hnone : matchName name = none) (hslots : ∀ s, t'.slot s = t.slot s)
    (hrouters : t'.routers = t.routers) (hkeyed : t.Keyed → t'.Keyed) :
    Added config tensor t t' := by
  have hparse : parseName tensor.name = .ok none := by
    unfold parseName
    rw [hname, hnone]
  refine added_of_unread (reads_of_none hparse) ?_ hslots hrouters hkeyed
  unfold routerOf
  rw [hparse]

/-- the three tensors that have a fixed name -/
theorem slot_fixedNames (name : Text) (a b d : Option ManifestTensor) (s : Slot) :
    Tables.slot { t.relevant name with tokenEmbedding := a, finalNorm := b, lmHead := d } s =
      t.slot s := by
  obtain ⟨l, role⟩ := s
  cases role with
  | fused r => cases r <;> rfl
  | _ => rfl

theorem returns_addTensor (c : Checkpoint) (config : ModelConfig) (i : Nat)
    (tensor : ManifestTensor) (t : Tables) :
    Returns (addTensor c config i tensor t) (Added config tensor t) := by
  unfold addTensor
  split
  · next hname =>
    exact Returns.pure (unread_of_matchName hname (by decide +kernel)
      (slot_fixedNames tensor.name _ _ _) rfl fun hk => ⟨hk.layers, hk.experts⟩)
  split
  · next hname =>
    exact Returns.pure (unread_of_matchName hname (by decide +kernel)
      (slot_fixedNames tensor.name _ _ _) rfl fun hk => ⟨hk.layers, hk.experts⟩)
  split
  · next hname =>
    exact Returns.pure (unread_of_matchName hname (by decide +kernel)
      (slot_fixedNames tensor.name _ _ _) rfl fun hk => ⟨hk.layers, hk.experts⟩)
  · have hsettle : Returns (settle (parseName tensor.name) : Code _)
        fun parsed => parseName tensor.name = .ok parsed := fun _ _ h => h
    refine hsettle.bind fun parsed hparsed => ?_
    cases parsed with
    | none =>
      refine Returns.pure (added_of_unread (reads_of_none hparsed) ?_ (fun _ => rfl) rfl id)
      unfold routerOf
      rw [hparsed]
    | some p =>
      exact Returns.guard fun hbound => returns_addParsed hparsed (UInt64.not_le.mp hbound)

end

/-! ## the loop -/

/-- every slot holds the last tensor that reads as it -/
structure Loop (config : ModelConfig) (seen : List ManifestTensor) (t : Tables) : Prop where
  slots : ∀ s, t.slot s = (Slots.last reads seen s).elim [] ManifestTensor.name
  single : ∀ s : Slot, s.2.checked = true → Slots.Single reads seen s
  routers : t.routers = seen.filterMap routerOf
  keyed : t.Keyed
  bounded : ∀ tensor ∈ seen, ∀ s, reads tensor s = true → s.1.toUInt64 < config.layerCount

theorem loop_nil (config : ModelConfig) : Loop config [] {} where
  slots s := by
    obtain ⟨l, role⟩ := s
    cases role with
    | layer r => cases r <;> rfl
    | expert e r => cases r <;> rfl
    | fused r => cases r <;> rfl
  single _ _ := Slots.single_nil
  routers := rfl
  keyed := ⟨fun _ _ h => (nomatch h), fun _ _ h => (nomatch h)⟩
  bounded _ h := nomatch h

theorem Loop.add {config : ModelConfig} {seen : List ManifestTensor} {t t' : Tables}
    {tensor : ManifestTensor} (h : Loop config seen t) (ha : Added config tensor t t') :
    Loop config (seen ++ [tensor]) t' where
  slots s := by
    rw [ha.slots s, Slots.last_concat]
    split
    · rfl
    · exact h.slots s
  single s hs := by
    refine Slots.single_concat (h.single s hs) fun hr => ?_
    have hempty := ha.checked s hs hr
    rw [h.slots s] at hempty
    cases hlast : Slots.last reads seen s with
    | none => rfl
    | some x =>
      rw [hlast] at hempty
      exact absurd hempty (name_ne_nil (Slots.last_mem hlast).2)
  routers := by
    rw [ha.routers, h.routers, List.filterMap_append]
    cases hr : routerOf tensor <;> simp [hr]
  keyed := ha.keyed h.keyed
  bounded x hx s hr := by
    rcases List.mem_append.mp hx with hx | hx
    · exact h.bounded x hx s hr
    · obtain rfl := List.mem_singleton.mp hx
      exact ha.bounded s hr

theorem returns_loop (c : Checkpoint) (config : ModelConfig) :
    Returns (forEach (addTensor c config) 0 {} c.tensors) (Loop config c.tensors) :=
  Returns.forEach (fun seen tensor _ t _ h =>
    (returns_addTensor c config seen.length tensor t).mono fun _ ha => h.add ha) (loop_nil config)

/-! ## the experts -/

variable {config : ModelConfig} {t : Tables} {experts : List ManifestExpertMapping}

theorem mem_ordered {κ υ : Type} [DecidableEq κ] {rank : κ → Nat} {t : Table κ υ} {k : κ} {v : υ} :
    (k, v) ∈ ordered rank t ↔ t.lookup k = some v := by
  unfold ordered
  rw [List.mem_insertionSort, List.mem_map, ← Table.mem_entries_iff]
  constructor
  · rintro ⟨e, he, heq⟩
    obtain ⟨rfl, rfl⟩ := Prod.mk.inj heq
    exact he
  · intro h
    exact ⟨_, h, rfl⟩

/-- an expert that was cut from the fused tensors of its layer -/
structure FromFused (t : Tables) (x : ManifestExpertMapping) : Prop where
  gateUp : ∃ tensor, t.fusedGateUp.lookup x.layerId = some tensor ∧
    x.gate.tensorName = tensor.name ∧ x.up.tensorName = tensor.name
  down : ∃ tensor, t.fusedDown.lookup x.layerId = some tensor ∧ x.down.tensorName = tensor.name
  unmixed : ∀ key ∈ t.individual.keys, key.1 ≠ x.layerId

/-- the experts, from either layout -/
structure Collected (config : ModelConfig) (t : Tables) (experts : List ManifestExpertMapping) :
    Prop where
  origin : ∀ x ∈ experts, (∃ k, t.individual.lookup k = some x) ∨ FromFused t x
  individual : ∀ k x, t.individual.lookup k = some x → x ∈ experts
  fused : ∀ layer tensor, t.fusedGateUp.lookup layer = some tensor →
    ∀ e < config.expertCount.toNat, ∃ x ∈ experts, x.layerId = layer ∧ x.expertId = UInt32.ofNat e
  unmixed : ∀ layer tensor, t.fusedGateUp.lookup layer = some tensor →
    ∀ key ∈ t.individual.keys, key.1 ≠ layer
  paired : ∀ layer tensor, t.fusedDown.lookup layer = some tensor →
    ∃ tensor', t.fusedGateUp.lookup layer = some tensor'

theorem returns_individual (t : Tables) :
    Returns (forEach addComplete 0 [] (ordered pairRank t.individual)) fun experts =>
      ∀ x, x ∈ experts ↔ ∃ k, t.individual.lookup k = some x := by
  have hloop := Returns.forEach (f := addComplete) (l := ordered pairRank t.individual) (b := [])
    (I := fun seen experts => experts = seen.map Prod.snd) (fun seen entry _ experts _ h => ?_) rfl
  · refine hloop.mono fun experts h x => ?_
    rw [h, List.mem_map]
    constructor
    · rintro ⟨⟨k, v⟩, hmem, rfl⟩
      exact ⟨k, mem_ordered.mp hmem⟩
    · rintro ⟨k, hk⟩
      exact ⟨(k, x), mem_ordered.mpr hk, rfl⟩
  · refine Returns.guard fun _ => Returns.pure ?_
    rw [h, List.map_append]
    rfl

theorem returns_sliceProjection (tensor : ManifestTensor) (relativeOffset bytes : UInt64)
    (shape : Shape) : Returns (sliceProjection tensor relativeOffset bytes shape)
      fun location => location.tensorName = tensor.name :=
  Returns.guard fun _ => Returns.pure rfl

/-- the experts of one fused layer: behind the others, one for each number -/
structure FusedSeen (t : Tables) (layer : UInt32) (before : List ManifestExpertMapping)
    (seen : List Nat) (experts : List ManifestExpertMapping) : Prop where
  old : ∀ x ∈ before, x ∈ experts
  new : ∀ x ∈ experts, x ∈ before ∨ FromFused t x
  all : ∀ e ∈ seen, ∃ x ∈ experts, x.layerId = layer ∧ x.expertId = UInt32.ofNat e
  unmixed : ∀ key ∈ t.individual.keys, key.1 ≠ layer

theorem returns_addFusedLayer (before : List ManifestExpertMapping) (i : Nat)
    (entry : UInt32 × ManifestTensor) (hentry : t.fusedGateUp.lookup entry.1 = some entry.2) :
    Returns (addFusedLayer config t i entry before)
      (FusedSeen t entry.1 before (List.range config.expertCount.toNat)) := by
  refine (returns_orThrow _ _).bind fun down hdown => Returns.guard fun hmixed => ?_
  refine Returns.then fun expectedGateUp => Returns.then fun expectedDown => Returns.guard fun _ => ?_
  refine Returns.then fun projectionBytes => Returns.then fun downBytes => ?_
  refine Returns.forEach (fun seen e _ experts _ h => ?_)
    ⟨fun _ => id, fun _ => .inl, fun _ he => (nomatch he),
      fun key hkey heq => hmixed ⟨key, hkey, heq⟩⟩
  refine Returns.then fun gateShape => (returns_sliceProjection _ _ _ _).bind fun gate hgate => ?_
  refine Returns.then fun upShape => (returns_sliceProjection _ _ _ _).bind fun up hup => ?_
  refine Returns.then fun downShape => (returns_sliceProjection _ _ _ _).bind fun down' hdown' => ?_
  refine Returns.pure ⟨fun x hx => List.mem_append_left _ (h.old x hx), fun x hx => ?_,
    fun e' he' => ?_, h.unmixed⟩
  · rcases List.mem_append.mp hx with hx | hx
    · exact h.new x hx
    · obtain rfl := List.mem_singleton.mp hx
      exact .inr ⟨⟨entry.2, hentry, hgate, hup⟩, ⟨down, hdown, hdown'⟩, h.unmixed⟩
  · rcases List.mem_append.mp he' with he' | he'
    · obtain ⟨x, hx, hids⟩ := h.all e' he'
      exact ⟨x, List.mem_append_left _ hx, hids⟩
    · obtain rfl := List.mem_singleton.mp he'
      exact ⟨_, List.mem_append_right _ List.mem_cons_self, rfl, rfl⟩

theorem returns_collectExperts (config : ModelConfig) (t : Tables) :
    Returns (collectExperts config t) (Collected config t) := by
  refine (returns_individual t).bind fun individual hindividual => ?_
  have hfused := Returns.forEach (f := addFusedLayer config t) (l := ordered UInt32.toNat t.fusedGateUp)
    (I := fun seen experts => (∀ x ∈ individual, x ∈ experts) ∧
      (∀ x ∈ experts, x ∈ individual ∨ FromFused t x) ∧
      ∀ entry ∈ seen, (∀ key ∈ t.individual.keys, key.1 ≠ entry.1) ∧
        ∀ e < config.expertCount.toNat,
          ∃ x ∈ experts, x.layerId = entry.1 ∧ x.expertId = UInt32.ofNat e)
    (b := individual) (fun seen entry todo experts hsplit h => ?_)
    ⟨fun _ => id, fun _ => .inl, fun _ hentry => nomatch hentry⟩
  · refine hfused.bind fun experts h => ?_
    have hdown := Returns.forEach (f := checkDown t) (l := ordered UInt32.toNat t.fusedDown)
      (I := fun seen _ => ∀ entry ∈ seen, (t.fusedGateUp.lookup entry.1).isNone = false)
      (b := ()) (fun seen entry _ _ _ hseen => (returns_throwIf _ _).mono fun _ hc x hx => ?_)
      fun _ hentry => nomatch hentry
    · refine hdown.bind fun _ hpaired => Returns.guard fun _ => Returns.then fun _ => Returns.pure ?_
      refine ⟨fun x hx => (h.2.1 x hx).imp (hindividual x).mp id,
        fun k x hk => h.1 x ((hindividual x).mpr ⟨k, hk⟩),
        fun layer tensor hlayer => (h.2.2 (layer, tensor) (mem_ordered.mpr hlayer)).2,
        fun layer tensor hlayer => (h.2.2 (layer, tensor) (mem_ordered.mpr hlayer)).1,
        fun layer tensor hlayer => ?_⟩
      have hsome := hpaired (layer, tensor) (mem_ordered.mpr hlayer)
      exact Option.isSome_iff_exists.mp (by simpa using hsome)
    · rcases List.mem_append.mp hx with hx | hx
      · exact hseen x hx
      · obtain rfl := List.mem_singleton.mp hx
        exact Bool.not_eq_true _ ▸ hc
  · have hentry : t.fusedGateUp.lookup entry.1 = some entry.2 :=
      mem_ordered.mp (by rw [hsplit]; exact List.mem_append_right _ List.mem_cons_self)
    refine (returns_addFusedLayer experts seen.length entry hentry).mono fun experts' h' => ?_
    refine ⟨fun x hx => h'.old x (h.1 x hx), fun x hx => ?_, fun entry' hentry' => ?_⟩
    · exact (h'.new x hx).elim (h.2.1 x) .inr
    · rcases List.mem_append.mp hentry' with hmem | hmem
      · refine ⟨(h.2.2 entry' hmem).1, fun e he => ?_⟩
        obtain ⟨x, hx, hids⟩ := (h.2.2 entry' hmem).2 e he
        exact ⟨x, h'.old x hx, hids⟩
      · obtain rfl := List.mem_singleton.mp hmem
        exact ⟨h'.unmixed, fun e he => h'.all e (List.mem_range.mpr he)⟩

/-! ## the layers -/

/-- all the layers of the tables, or none -/
structure Mapped (config : ModelConfig) (t : Tables) (layers : List ManifestLayerMapping) : Prop where
  origin : ∀ x ∈ layers, ∃ l, t.layerMappings.lookup l = some x
  all : (∃ l x, t.layerMappings.lookup l = some x ∧ hasTransformer x = true) →
    ∀ l < config.layerCount.toNat, ∃ x ∈ layers, t.layerMappings.lookup (UInt32.ofNat l) = some x
  none : (¬ ∃ l x, t.layerMappings.lookup l = some x ∧ hasTransformer x = true) → layers = []

theorem returns_collectLayers (config : ModelConfig) (t : Tables) :
    Returns (collectLayers config t) (Mapped config t) := by
  have hany : (t.layerMappings.entries.any fun entry => hasTransformer entry.2) = true ↔
      ∃ l x, t.layerMappings.lookup l = some x ∧ hasTransformer x = true := by
    rw [List.any_eq_true]
    constructor
    · rintro ⟨⟨l, x⟩, hmem, htransformer⟩
      exact ⟨l, x, Table.mem_entries_iff.mp hmem, htransformer⟩
    · rintro ⟨l, x, hlookup, htransformer⟩
      exact ⟨⟨l, x⟩, Table.mem_entries_iff.mpr hlookup, htransformer⟩
  unfold collectLayers
  split
  · next htransformer =>
    have hloop := Returns.forEach (f := addLayer t) (l := List.range config.layerCount.toNat)
      (b := []) (I := fun seen layers =>
        (∀ x ∈ layers, ∃ l, t.layerMappings.lookup l = some x) ∧
        ∀ l ∈ seen, ∃ x ∈ layers, t.layerMappings.lookup (UInt32.ofNat l) = some x)
      (fun seen l _ layers _ h => ?_) ⟨fun _ hx => (nomatch hx), fun _ hl => (nomatch hl)⟩
    · refine hloop.mono fun layers h => ⟨h.1, fun _ l hl => h.2 l (List.mem_range.mpr hl), ?_⟩
      exact fun hno => absurd (hany.mp htransformer) hno
    · refine (returns_orThrow _ _).bind fun mapping hmapping => Returns.guard fun _ =>
        Returns.pure ⟨fun x hx => ?_, fun l' hl' => ?_⟩
      · rcases List.mem_append.mp hx with hx | hx
        · exact h.1 x hx
        · exact ⟨_, List.mem_singleton.mp hx ▸ hmapping⟩
      · rcases List.mem_append.mp hl' with hl' | hl'
        · obtain ⟨x, hx, hlookup⟩ := h.2 l' hl'
          exact ⟨x, List.mem_append_left _ hx, hlookup⟩
        · obtain rfl := List.mem_singleton.mp hl'
          exact ⟨mapping, List.mem_append_right _ List.mem_cons_self, hmapping⟩
  · next htransformer =>
    exact Returns.pure ⟨fun _ hx => (nomatch hx), fun hyes => absurd (hany.mpr hyes) htransformer,
      fun _ => rfl⟩

/-! ## the manifest -/

/-- where the sections of a returned manifest come from -/
structure Inspected (c : Checkpoint) (m : ModelManifest) (t : Tables) : Prop where
  loop : Loop m.config c.tensors t
  experts : ∃ experts, m.experts.Perm experts ∧ Collected m.config t experts
  layers : Mapped m.config t m.layers
  routers : m.router.tensors.Perm t.routers
  distinct : (m.router.tensors.map ManifestRouterTensor.layerId).Nodup

theorem returns_inspect (asFloat : JsonValue → Except MetadataError Binary32) (c : Checkpoint) :
    Returns (inspect asFloat c) fun m => ∃ t, Inspected c m t := by
  refine Returns.then fun read => Returns.then fun parameterCount => ?_
  refine (returns_loop c _).bind fun t hloop => ?_
  refine (returns_collectExperts _ t).bind fun experts hexperts => ?_
  refine (returns_collectLayers _ t).bind fun layers hlayers => Returns.then fun modelIO => ?_
  have hvalidate : ∀ m : ModelManifest, Returns (mapError .std m.validate : Code Unit) fun _ =>
      (m.router.tensors.map ManifestRouterTensor.layerId).Nodup := fun m exact =>
    wp_mapError (wp_mono (returns_validate_routers m exact) fun r _ hr => by
      cases r with
      | ok u => exact fun a ha => hr u rfl
      | error e => exact fun a ha => nomatch ha)
  refine (hvalidate _).bind fun _ hdistinct => Returns.pure ⟨t, ?_⟩
  exact
    { loop := hloop
      experts := ⟨experts, List.perm_insertionSort .., hexperts⟩
      layers := hlayers
      routers := List.perm_insertionSort ..
      distinct := hdistinct }

/-! ## the property -/

/-- the manifest names the tensor for the role, wherever it has the role -/
def Binds (m : ModelManifest) (layer : UInt32) (name : Text) : Role → Prop
  | .layer .router =>
    (∃ r ∈ m.router.tensors, r.layerId = layer) ∧
    (∀ r ∈ m.router.tensors, r.layerId = layer → r.tensorName = name) ∧
    ∀ x ∈ m.layers, x.layerId = layer → x.routerTensor = name
  | .layer r =>
    (∃ x ∈ m.layers, x.layerId = layer) ∧
    ∀ x ∈ m.layers, x.layerId = layer → layerName x r = name
  | .expert e r =>
    (∃ x ∈ m.experts, x.layerId = layer ∧ x.expertId = e) ∧
    ∀ x ∈ m.experts, x.layerId = layer → x.expertId = e → expertName x r = name
  | .fused .gateUp =>
    (∀ e : UInt32, e.toUInt64 < m.config.expertCount →
      ∃ x ∈ m.experts, x.layerId = layer ∧ x.expertId = e) ∧
    ∀ x ∈ m.experts, x.layerId = layer → x.gate.tensorName = name ∧ x.up.tensorName = name
  | .fused .down =>
    (∀ e : UInt32, e.toUInt64 < m.config.expertCount →
      ∃ x ∈ m.experts, x.layerId = layer ∧ x.expertId = e) ∧
    ∀ x ∈ m.experts, x.layerId = layer → x.down.tensorName = name

structure Unshadowed (c : Checkpoint) (m : ModelManifest) : Prop where
  single : ∀ s, Slots.Single reads c.tensors s
  bound : ∀ tensor ∈ c.tensors, ∀ s : Slot, reads tensor s = true → Binds m s.1 tensor.name s.2

/-- no two tensors for a role that the loop overwrites, and no query or key norm where no such role
has a tensor -/
structure Distinguished (c : Checkpoint) : Prop where
  single : ∀ (layer : UInt32) (r : LayerRole), r.overwritten = true →
    Slots.Single reads c.tensors (layer, .layer r)
  normed : ∀ tensor ∈ c.tensors, ∀ (layer : UInt32) (r : LayerRole),
    r = .queryNorm ∨ r = .keyNorm → reads tensor (layer, .layer r) = true →
    ∃ tensor' ∈ c.tensors, ∃ (layer' : UInt32) (r' : LayerRole), r'.overwritten = true ∧
      reads tensor' (layer', .layer r') = true

section
variable {c : Checkpoint} {m : ModelManifest} {tensor : ManifestTensor} {layer : UInt32}

theorem Inspected.single_router (h : Inspected c m t) (layer : UInt32) :
    Slots.Single reads c.tensors (layer, .layer .router) := by
  have hnodup : (c.tensors.filterMap fun x =>
      (routerOf x).map ManifestRouterTensor.layerId).Nodup := by
    have hperm := (h.routers.map ManifestRouterTensor.layerId).nodup_iff.mp h.distinct
    rw [h.loop.routers, List.map_filterMap] at hperm
    exact hperm
  have hrouter : ∀ {x : ManifestTensor}, reads x (layer, .layer .router) = true →
      (routerOf x).map ManifestRouterTensor.layerId = some layer := fun {x} hx => by
    unfold reads at hx
    split at hx
    · next p hp =>
      obtain ⟨rfl, hrole⟩ := Prod.mk.inj (of_decide_eq_true hx)
      rw [routerOf_eq hp, if_pos (role_router.mp hrole)]
      rfl
    · exact nomatch hx
  exact fun a ha b hb har hbr => Slots.eq_of_filterMap_nodup hnodup ha hb (hrouter har) (hrouter hbr)

/-- a slot that one tensor reads as has its name -/
theorem Inspected.slot_eq (h : Inspected c m t) {s : Slot} (hs : Slots.Single reads c.tensors s)
    (hmem : tensor ∈ c.tensors) (hr : reads tensor s = true) : t.slot s = tensor.name := by
  rw [h.loop.slots s, hs.last_eq hmem hr]
  rfl

theorem Inspected.layer_name (h : Inspected c m t) {r : LayerRole} {x : ManifestLayerMapping}
    (hs : Slots.Single reads c.tensors (layer, .layer r)) (hmem : tensor ∈ c.tensors)
    (hr : reads tensor (layer, .layer r) = true) (hx : x ∈ m.layers) (hid : x.layerId = layer) :
    layerName x r = tensor.name := by
  rw [← h.slot_eq hs hmem hr]
  obtain ⟨l, hl⟩ := h.layers.origin x hx
  have hkey := h.loop.keyed.layers l x hl
  obtain rfl : l = layer := hkey.symm.trans hid
  show layerName x r = layerName (t.layer l) r
  unfold Tables.layer
  rw [hl]
  cases r <;> rfl

theorem hasTransformer_iff (x : ManifestLayerMapping) : hasTransformer x = true ↔
    ∃ r : LayerRole, r.overwritten = true ∧ layerName x r ≠ [] := by
  unfold hasTransformer
  rw [decide_eq_true_eq]
  constructor
  · rintro (h | h | h | h | h | h)
    · exact ⟨.query, rfl, h⟩
    · exact ⟨.key, rfl, h⟩
    · exact ⟨.value, rfl, h⟩
    · exact ⟨.output, rfl, h⟩
    · exact ⟨.inputNorm, rfl, h⟩
    · exact ⟨.postAttentionNorm, rfl, h⟩
  · rintro ⟨r, hr, h⟩
    cases r with
    | query => exact .inl h
    | key => exact .inr (.inl h)
    | value => exact .inr (.inr (.inl h))
    | output => exact .inr (.inr (.inr (.inl h)))
    | inputNorm => exact .inr (.inr (.inr (.inr (.inl h))))
    | postAttentionNorm => exact .inr (.inr (.inr (.inr (.inr h))))
    | _ => exact nomatch hr

/-- the layers are mapped where a tensor reads as one of the overwritten roles -/
theorem Inspected.transformer_iff (h : Inspected c m t) :
    (∃ l x, t.layerMappings.lookup l = some x ∧ hasTransformer x = true) ↔
      ∃ tensor ∈ c.tensors, ∃ (layer : UInt32) (r : LayerRole), r.overwritten = true ∧
        reads tensor (layer, .layer r) = true := by
  have hslot : ∀ l r, t.slot (l, .layer r) =
      layerName ((t.layerMappings.lookup l).getD {}) r := fun l r => by cases r <;> rfl
  constructor
  · rintro ⟨l, x, hl, htransformer⟩
    obtain ⟨r, hr, hne⟩ := (hasTransformer_iff x).mp htransformer
    have hname := h.loop.slots (l, .layer r)
    rw [hslot, hl] at hname
    cases hlast : Slots.last reads c.tensors (l, Role.layer r) with
    | none =>
      rw [hlast] at hname
      exact absurd hname hne
    | some tensor =>
      obtain ⟨hmem, hreads⟩ := Slots.last_mem hlast
      exact ⟨tensor, hmem, l, r, hr, hreads⟩
  · rintro ⟨tensor, hmem, l, r, hr, hreads⟩
    have hname := h.loop.slots (l, .layer r)
    rw [hslot] at hname
    cases hlast : Slots.last reads c.tensors (l, Role.layer r) with
    | none =>
      exact absurd hreads (by simp [Slots.last_eq_none.mp hlast tensor hmem])
    | some tensor' =>
      rw [hlast] at hname
      have hne := name_ne_nil (Slots.last_mem hlast).2
      cases hl : t.layerMappings.lookup l with
      | none =>
        rw [hl] at hname
        refine absurd (hname.symm.trans ?_) hne
        cases r <;> rfl
      | some x =>
        rw [hl] at hname
        exact ⟨l, x, hl, (hasTransformer_iff x).mpr ⟨r, hr, fun hnil => hne (hname.symm.trans hnil)⟩⟩

/-- the mapping of a layer that a tensor reads as, where the layers are mapped -/
theorem Inspected.layer_mapped (h : Inspected c m t) {s : Slot} (hmem : tensor ∈ c.tensors)
    (hr : reads tensor s = true)
    (htransformer : ∃ l x, t.layerMappings.lookup l = some x ∧ hasTransformer x = true) :
    ∃ x ∈ m.layers, x.layerId = s.1 := by
  have hbound := UInt64.lt_iff_toNat_lt.mp (h.loop.bounded tensor hmem s hr)
  rw [UInt32.toNat_toUInt64] at hbound
  obtain ⟨x, hx, hlookup⟩ := h.layers.all htransformer s.1.toNat hbound
  rw [UInt32.ofNat_toNat] at hlookup
  exact ⟨x, hx, h.loop.keyed.layers s.1 x hlookup⟩

theorem Inspected.binds_layer (h : Inspected c m t) {r : LayerRole} (hr : r ≠ .router)
    (hs : Slots.Single reads c.tensors (layer, .layer r)) (hmem : tensor ∈ c.tensors)
    (hreads : reads tensor (layer, .layer r) = true)
    (htransformer : ∃ l x, t.layerMappings.lookup l = some x ∧ hasTransformer x = true) :
    Binds m layer tensor.name (.layer r) := by
  have hbinds : (∃ x ∈ m.layers, x.layerId = layer) ∧
      ∀ x ∈ m.layers, x.layerId = layer → layerName x r = tensor.name :=
    ⟨h.layer_mapped hmem hreads htransformer, fun x hx hid => h.layer_name hs hmem hreads hx hid⟩
  cases r with
  | router => exact absurd rfl hr
  | _ => exact hbinds

theorem Inspected.binds_router (h : Inspected c m t) (hmem : tensor ∈ c.tensors)
    (hreads : reads tensor (layer, .layer .router) = true) :
    Binds m layer tensor.name (.layer .router) := by
  have hsingle := h.single_router layer
  have hentry : ⟨layer, tensor.name⟩ ∈ m.router.tensors := by
    rw [h.routers.mem_iff, h.loop.routers, List.mem_filterMap]
    refine ⟨tensor, hmem, ?_⟩
    unfold reads at hreads
    split at hreads
    · next p hp =>
      obtain ⟨rfl, hrole⟩ := Prod.mk.inj (of_decide_eq_true hreads)
      rw [routerOf_eq hp, if_pos (role_router.mp hrole)]
    · exact nomatch hreads
  refine ⟨⟨_, hentry, rfl⟩, fun r hr hid => ?_, fun x hx hid =>
    h.layer_name hsingle hmem hreads hx hid⟩
  have heq := List.inj_on_of_nodup_map h.distinct hr hentry hid
  rw [heq]

theorem Inspected.binds_expert (h : Inspected c m t) {e : UInt32} {r : ExpertRole}
    (hmem : tensor ∈ c.tensors) (hreads : reads tensor (layer, .expert e r) = true) :
    Binds m layer tensor.name (.expert e r) := by
  have hslot : expertName (t.expert layer e) r = tensor.name :=
    h.slot_eq (h.loop.single _ rfl) hmem hreads
  obtain ⟨experts, hperm, hcollected⟩ := h.experts
  cases hlookup : t.individual.lookup (layer, e) with
  | none =>
    have hnil : expertName (t.expert layer e) r = [] := by
      unfold Tables.expert
      rw [hlookup]
      cases r <;> rfl
    exact absurd (hslot.symm.trans hnil) (name_ne_nil hreads)
  | some x =>
    have hids := h.loop.keyed.experts (layer, e) x hlookup
    have hname : expertName x r = tensor.name := by
      rw [← hslot]
      unfold Tables.expert
      rw [hlookup]
      cases r <;> rfl
    refine ⟨⟨x, hperm.mem_iff.mpr (hcollected.individual _ x hlookup),
      (Prod.mk.inj hids).1, (Prod.mk.inj hids).2⟩, fun y hy hlayer hexpert => ?_⟩
    rcases hcollected.origin y (hperm.mem_iff.mp hy) with ⟨k, hk⟩ | hfused
    · have hkey := h.loop.keyed.experts k y hk
      obtain rfl : k = (layer, e) := by rw [← hkey, hlayer, hexpert]
      obtain rfl := Option.some.inj (hk.symm.trans hlookup)
      exact hname
    · refine absurd hlayer.symm (hfused.unmixed (layer, e) ?_)
      exact Table.mem_keys_of_lookup hlookup

theorem Inspected.binds_fused (h : Inspected c m t) {r : FusedRole} (hmem : tensor ∈ c.tensors)
    (hreads : reads tensor (layer, .fused r) = true) : Binds m layer tensor.name (.fused r) := by
  have hslot : ((t.fused r).lookup layer).elim [] ManifestTensor.name = tensor.name :=
    h.slot_eq (h.loop.single _ (by cases r <;> rfl)) hmem hreads
  obtain ⟨found, hfound, hname⟩ : ∃ found, (t.fused r).lookup layer = some found ∧
      found.name = tensor.name := by
    cases hlookup : (t.fused r).lookup layer with
    | none =>
      rw [hlookup] at hslot
      exact absurd hslot.symm (name_ne_nil hreads)
    | some found =>
      rw [hlookup] at hslot
      exact ⟨found, rfl, hslot⟩
  obtain ⟨experts, hperm, hcollected⟩ := h.experts
  obtain ⟨gateUp, hgateUp⟩ : ∃ gateUp, t.fusedGateUp.lookup layer = some gateUp := by
    cases r with
    | gateUp => exact ⟨found, hfound⟩
    | down => exact hcollected.paired layer found hfound
  have hall : ∀ e : UInt32, e.toUInt64 < m.config.expertCount →
      ∃ x ∈ m.experts, x.layerId = layer ∧ x.expertId = e := fun e he => by
    have hlt := UInt64.lt_iff_toNat_lt.mp he
    rw [UInt32.toNat_toUInt64] at hlt
    obtain ⟨x, hx, hids⟩ := hcollected.fused layer gateUp hgateUp e.toNat hlt
    rw [UInt32.ofNat_toNat] at hids
    exact ⟨x, hperm.mem_iff.mpr hx, hids⟩
  -- an expert of the layer that has a mapping of its own would come with a mixed layout
  have hfused : ∀ x ∈ m.experts, x.layerId = layer → FromFused t x := fun x hx hid => by
    rcases hcollected.origin x (hperm.mem_iff.mp hx) with ⟨k, hk⟩ | hfused
    · have hkey := h.loop.keyed.experts k x hk
      refine absurd ?_ (hcollected.unmixed layer gateUp hgateUp k (Table.mem_keys_of_lookup hk))
      rw [← hkey]
      exact hid
    · exact hfused
  cases r with
  | gateUp =>
    refine ⟨hall, fun x hx hid => ?_⟩
    obtain ⟨tensor', hlookup, hgate, hup⟩ := (hfused x hx hid).gateUp
    obtain rfl := Option.some.inj (hlookup.symm.trans (hid ▸ hfound))
    exact ⟨hgate.trans hname, hup.trans hname⟩
  | down =>
    refine ⟨hall, fun x hx hid => ?_⟩
    obtain ⟨tensor', hlookup, hdown⟩ := (hfused x hx hid).down
    obtain rfl := Option.some.inj (hlookup.symm.trans (hid ▸ hfound))
    exact hdown.trans hname

/-- a role that is bound has a mapping of its layer -/
theorem layers_ne_nil {r : LayerRole} (h : Binds m layer tensor.name (.layer r)) (hr : r ≠ .router) :
    m.layers ≠ [] := by
  have hmapped : ∃ x ∈ m.layers, x.layerId = layer := by
    cases r with
    | router => exact absurd rfl hr
    | _ => exact h.1
  obtain ⟨x, hx, _⟩ := hmapped
  exact List.ne_nil_of_mem hx

theorem Inspected.single (h : Inspected c m t) (hd : Distinguished c) (s : Slot) :
    Slots.Single reads c.tensors s := by
  obtain ⟨layer, role⟩ := s
  cases role with
  | expert e r => exact h.loop.single _ rfl
  | fused r => exact h.loop.single _ rfl
  | layer r =>
    cases r with
    | router => exact h.single_router layer
    | queryNorm => exact h.loop.single _ rfl
    | keyNorm => exact h.loop.single _ rfl
    | _ => exact hd.single layer _ rfl

theorem Inspected.bound (h : Inspected c m t) (hd : Distinguished c) (hmem : tensor ∈ c.tensors)
    {s : Slot} (hreads : reads tensor s = true) : Binds m s.1 tensor.name s.2 := by
  obtain ⟨layer, role⟩ := s
  have hsingle := h.single hd (layer, role)
  cases role with
  | expert e r => exact h.binds_expert hmem hreads
  | fused r => exact h.binds_fused hmem hreads
  | layer r =>
    by_cases hr : r = .router
    · subst hr
      exact h.binds_router hmem hreads
    · refine h.binds_layer hr hsingle hmem hreads (h.transformer_iff.mpr ?_)
      by_cases hover : r.overwritten = true
      · exact ⟨tensor, hmem, layer, r, hover, hreads⟩
      · refine hd.normed tensor hmem layer r ?_ hreads
        cases r with
        | queryNorm => exact .inl rfl
        | keyNorm => exact .inr rfl
        | router => exact absurd rfl hr
        | _ => exact absurd rfl hover

end

/-- no tensor of an accepted checkpoint is shadowed exactly where its roles are told apart -/
theorem inspect_unshadowed_iff (asFloat : JsonValue → Except MetadataError Binary32)
    (c : Checkpoint) (m : ModelManifest) (h : ((inspect asFloat c).exec true).1 = .ok m) :
    Unshadowed c m ↔ Distinguished c := by
  obtain ⟨t, ht⟩ := returns_inspect asFloat c true m h
  constructor
  · intro hu
    refine ⟨fun layer r _ => hu.single (layer, .layer r), fun tensor hmem layer r hr hreads => ?_⟩
    have hne : r ≠ .router := by rcases hr with rfl | rfl <;> decide
    have hlayers := layers_ne_nil (hu.bound tensor hmem _ hreads) hne
    rw [← ht.transformer_iff]
    by_contra hno
    exact hlayers (ht.layers.none hno)
  · intro hd
    exact ⟨ht.single hd, fun tensor hmem s hreads => ht.bound hd hmem hreads⟩

/-! ## a small checkpoint -/

/-- one layer, one expert, everything of width one but the heads -/
def sampleConfig : JsonValue := .object
  [(ascii "head_dim", .number (ascii "2")),
   (ascii "hidden_size", .number (ascii "1")),
   (ascii "model_type", .string (ascii "qwen3_moe")),
   (ascii "moe_intermediate_size", .number (ascii "1")),
   (ascii "norm_topk_prob", .bool true),
   (ascii "num_experts", .number (ascii "1")),
   (ascii "num_experts_per_tok", .number (ascii "1")),
   (ascii "num_hidden_layers", .number (ascii "1"))]

def sampleTensor (name : String) (shape : Shape) (size : UInt64) : ManifestTensor :=
  { name := ascii name, sourceFile := ascii "f", size := size, shape := shape }

theorem built_one : ((contiguous [1]).exec true).1 = .ok ⟨[1], [1], 1, 1⟩ ∨
    ((strided [1] [1]).exec true).1 = .ok ⟨[1], [1], 1, 1⟩ := .inl rfl

def one : Shape := ⟨⟨[1], [1], 1, 1⟩, built_one⟩

theorem built_oneByOne : ((contiguous [1, 1]).exec true).1 = .ok ⟨[1, 1], [1, 1], 1, 1⟩ ∨
    ((strided [1, 1] [1, 1]).exec true).1 = .ok ⟨[1, 1], [1, 1], 1, 1⟩ := .inl rfl

def oneByOne : Shape := ⟨⟨[1, 1], [1, 1], 1, 1⟩, built_oneByOne⟩

def twoByOne : Shape := ⟨⟨[2, 1], [1, 1], 2, 2⟩, .inl rfl⟩

def oneByTwo : Shape := ⟨⟨[1, 2], [2, 1], 2, 2⟩, .inl rfl⟩

def sampleTensors : List ManifestTensor :=
  [sampleTensor "model.layers.0.self_attn.q_proj.weight" twoByOne 8,
   sampleTensor "model.layers.0.self_attn.k_proj.weight" twoByOne 8,
   sampleTensor "model.layers.0.self_attn.v_proj.weight" twoByOne 8,
   sampleTensor "model.layers.0.self_attn.o_proj.weight" oneByTwo 8,
   sampleTensor "model.layers.0.input_layernorm.weight" one 4,
   sampleTensor "model.layers.0.post_attention_layernorm.weight" one 4,
   sampleTensor "model.layers.0.mlp.gate.weight" oneByOne 4,
   sampleTensor "model.layers.0.mlp.experts.0.gate_proj.weight" oneByOne 4,
   sampleTensor "model.layers.0.mlp.experts.0.up_proj.weight" oneByOne 4,
   sampleTensor "model.layers.0.mlp.experts.0.down_proj.weight" oneByOne 4]

def sample (extra : List ManifestTensor) : Checkpoint where
  config := sampleConfig
  rootName := ascii "m"
  tensors := sampleTensors ++ extra

/-- the query projection of layer 0 under another spelling of the number -/
def respelled : ManifestTensor := sampleTensor "model.layers.00.self_attn.q_proj.weight" twoByOne 8

/-- no number of the sample is a floating-point one -/
def noFloat : JsonValue → Except MetadataError Binary32 := fun _ => .error ⟨""⟩

def accepted (c : Checkpoint) : Bool :=
  match ((inspect noFloat c).exec true).1 with
  | .ok _ => true
  | .error _ => false

theorem manifest_of_accepted {c : Checkpoint} (h : accepted c = true) :
    ∃ m, ((inspect noFloat c).exec true).1 = .ok m := by
  unfold accepted at h
  split at h
  · next m hm => exact ⟨m, hm⟩
  · exact nomatch h

theorem inspect_unshadowed_iff_sample : ∃ m, ((inspect noFloat (sample [])).exec true).1 = .ok m ∧
    (Unshadowed (sample []) m ↔ Distinguished (sample [])) := by
  obtain ⟨m, hm⟩ := manifest_of_accepted (c := sample []) (by decide +kernel)
  exact ⟨m, hm, inspect_unshadowed_iff noFloat (sample []) m hm⟩

/-- two query projections of layer 0 are accepted -/
theorem query_projection_shadowed : ∃ c : Checkpoint,
    (c.tensors.map ManifestTensor.name).Nodup ∧
    ∃ m, ((inspect noFloat c).exec true).1 = .ok m ∧ ¬ Unshadowed c m := by
  obtain ⟨m, hm⟩ := manifest_of_accepted (c := sample [respelled]) (by decide +kernel)
  refine ⟨sample [respelled], by decide +kernel, m, hm, fun hu => ?_⟩
  have hmem : sampleTensors.head (by decide) ∈ (sample [respelled]).tensors :=
    List.mem_append_left _ (List.head_mem _)
  have heq := hu.single (0, .layer .query) _ hmem respelled
    (List.mem_append_right _ List.mem_cons_self) (by decide +kernel) (by decide +kernel)
  exact absurd (congrArg ManifestTensor.name heq) (by decide +kernel)

end HyperMoE.Importer.Qwen
