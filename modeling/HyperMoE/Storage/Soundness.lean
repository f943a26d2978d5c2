import HyperMoE.Storage.ExpertIndex

/-!
# The index is sound

What the constructor accepts, with every sum and product over the integers.

* `ValidRecord`, `ValidProjection`         an entry that passed its checks;
* `RecordsSeen`, `ProjectionsSeen`         the loops of `rebuildLookup`, up to an entry;
* `ExpertIndex.seen`                       the whole index.
-/

namespace HyperMoE.Storage

open Lib Lib.Fallible Tensor

/-! ## keys -/

theorem toNat_key (l e : UInt32) : (key l e).toNat = l.toNat * 2 ^ 32 + e.toNat := by
  have hl := UInt32.toNat_lt l
  have he := UInt32.toNat_lt e
  unfold key
  rw [UInt64.toNat_or, UInt64.toNat_shiftLeft, UInt32.toNat_toUInt64, UInt32.toNat_toUInt64]
  have hmod : l.toNat <<< ((32 : UInt64).toNat % 64) % 2 ^ 64 = l.toNat <<< 32 := by
    show l.toNat <<< 32 % 2 ^ 64 = _
    rw [Nat.shiftLeft_eq]
    omega
  rw [hmod, ← Nat.shiftLeft_add_eq_or_of_lt he, Nat.shiftLeft_eq]

theorem key_inj {l l' e e' : UInt32} : key l e = key l' e' ↔ l = l' ∧ e = e' := by
  constructor
  · intro h
    have hn := congrArg UInt64.toNat h
    have he := UInt32.toNat_lt e
    have he' := UInt32.toNat_lt e'
    rw [toNat_key, toNat_key] at hn
    exact ⟨UInt32.toNat_inj.mp (by omega), UInt32.toNat_inj.mp (by omega)⟩
  · rintro ⟨rfl, rfl⟩
    rfl

/-! ## records -/

structure ValidRecord (r : ExpertRecord) : Prop where
  nonempty : r.size ≠ 0
  quantization : isValidQuantization r.quantization_type = true
  /-- the end of the range is a word -/
  bounded : r.offset.toNat + r.size.toNat < 2 ^ 64

/-- the loop over the records has seen these -/
structure RecordsSeen (seen : List ExpertRecord) (lookup : Table UInt64 Nat) : Prop where
  valid : ∀ r ∈ seen, ValidRecord r
  found : ∀ k i, lookup.lookup k = some i ↔ ∃ r, seen[i]? = some r ∧ r.key = k

theorem recordsSeen_nil : RecordsSeen [] ∅ where
  valid := by simp
  found := by simp

theorem getElem?_concat {α : Type} {seen : List α} {a b : α} {i : Nat} :
    (seen ++ [a])[i]? = some b ↔ seen[i]? = some b ∨ (i = seen.length ∧ a = b) := by
  rw [List.getElem?_append]
  split
  · next h =>
    refine ⟨.inl, ?_⟩
    rintro (h' | ⟨rfl, -⟩)
    · exact h'
    · exact absurd h (Nat.lt_irrefl _)
  · next h =>
    have hnone : seen[i]? = none := List.getElem?_eq_none (Nat.not_lt.mp h)
    rw [hnone, List.getElem?_singleton]
    constructor
    · split
      · next h0 =>
        intro hab
        exact .inr ⟨by omega, Option.some.inj hab⟩
      · exact fun h' => absurd h' (by simp)
    · rintro (h' | ⟨rfl, rfl⟩)
      · cases h'
      · simp

theorem RecordsSeen.add {seen : List ExpertRecord} {lookup : Table UInt64 Nat} {r : ExpertRecord}
    (h : RecordsSeen seen lookup) (hr : ValidRecord r) (hk : lookup.lookup r.key = none) :
    RecordsSeen (seen ++ [r]) (lookup.insert r.key seen.length) := by
  refine ⟨fun r' hr' => ?_, fun k i => ?_⟩
  · rcases List.mem_append.mp hr' with hr' | hr'
    · exact h.valid r' hr'
    · exact List.mem_singleton.mp hr' ▸ hr
  · rw [Table.lookup_insert']
    constructor
    · split
      · next hkr =>
        intro hi
        obtain rfl := Option.some.inj hi
        exact ⟨r, getElem?_concat.mpr (.inr ⟨rfl, rfl⟩), hkr.symm⟩
      · intro hi
        obtain ⟨r', hr', hk'⟩ := (h.found k i).mp hi
        exact ⟨r', getElem?_concat.mpr (.inl hr'), hk'⟩
    · rintro ⟨r', hr', rfl⟩
      rcases getElem?_concat.mp hr' with hr' | ⟨rfl, rfl⟩
      · have hi := (h.found _ i).mpr ⟨r', hr', rfl⟩
        rw [if_neg fun hkr => by rw [hkr, hk] at hi; cases hi]
        exact hi
      · exact if_pos rfl

theorem wp_addRecord {seen : List ExpertRecord} {lookup : Table UInt64 Nat} {r : ExpertRecord}
    {exact : Bool} (h : RecordsSeen seen lookup) :
    wp (addRecord seen.length r lookup) (fun result exact' => exact' = exact ∧ match result with
      | .ok lookup' => RecordsSeen (seen ++ [r]) lookup'
      | .error _ => True) exact := by
  show wp (_ >>= _) _ exact
  rw [wp_bind, wp_throwIf]
  split
  · exact ⟨rfl, trivial⟩
  next hvalid =>
  show wp (_ >>= _) _ exact
  rw [wp_bind, wp_throwIf]
  split
  · exact ⟨rfl, trivial⟩
  next hrange =>
  show wp (_ >>= _) _ exact
  rw [wp_bind, wp_throwIf]
  split
  · exact ⟨rfl, trivial⟩
  next hnew =>
  obtain ⟨hsize, hq⟩ := not_or.mp hvalid
  exact ⟨rfl, h.add ⟨hsize, Bool.not_eq_false _ ▸ hq, Watched.exact_add (UInt64.not_lt.mp hrange)⟩
    (by simpa using hnew)⟩

theorem RecordsSeen.find {records : List ExpertRecord} {lookup : Table UInt64 Nat}
    (h : RecordsSeen records lookup) {l e : UInt32} {r : ExpertRecord} :
    findIn records lookup l e = some r ↔ r ∈ records ∧ r.layer_id = l ∧ r.expert_id = e := by
  unfold findIn
  rw [Option.bind_eq_some_iff]
  constructor
  · rintro ⟨i, hi, hr⟩
    obtain ⟨r', hr', hk⟩ := (h.found _ i).mp hi
    obtain rfl := Option.some.inj (hr'.symm.trans hr)
    exact ⟨List.mem_of_getElem? hr, key_inj.mp hk⟩
  · rintro ⟨hr, rfl, rfl⟩
    obtain ⟨i, hi⟩ := List.mem_iff_getElem?.mp hr
    exact ⟨i, (h.found _ i).mpr ⟨r, hi, rfl⟩, hi⟩

/-! ## projections -/

structure ValidProjection (records : List ExpertRecord) (p : ProjectionRecord) : Prop where
  type : p.projection_type.toNat < 3
  rank : p.rank.toNat ≤ 4
  /-- the range is inside the range of the projection's expert -/
  inside : ∃ r ∈ records, r.layer_id = p.layer_id ∧ r.expert_id = p.expert_id ∧
    r.offset.toNat ≤ p.offset.toNat ∧
    p.offset.toNat + p.size.toNat ≤ r.offset.toNat + r.size.toNat
  /-- the size is the product of the first dimensions and the width of an element -/
  size : ∃ dtype, DType.ofCode p.dtype = some dtype ∧ p.size.toNat =
    ((p.shape.toList.take p.rank.toNat).map UInt64.toNat).prod * dtype.sizeOf.toNat

structure ProjectionsSeen (records : List ExpertRecord) (seen : List ProjectionRecord)
    (positions : Table UInt64 Positions) : Prop where
  valid : ∀ p ∈ seen, ValidProjection records p
  found : ∀ k t i, (∃ found, positions.lookup k = some found ∧ found t = some i) ↔
    ∃ p, seen[i]? = some p ∧ p.key = k ∧ p.projection_type = t

theorem projectionsSeen_nil {records : List ExpertRecord} : ProjectionsSeen records [] ∅ where
  valid := by simp
  found := by simp

theorem wp_checkRange {records : List ExpertRecord} {lookup : Table UInt64 Nat}
    (h : RecordsSeen records lookup) {p : ProjectionRecord} {exact : Bool} :
    wp (checkRange records lookup p) (fun result exact' => exact' = exact ∧ (result = .ok () →
      ∃ r ∈ records, r.layer_id = p.layer_id ∧ r.expert_id = p.expert_id ∧
        r.offset.toNat ≤ p.offset.toNat ∧
        p.offset.toNat + p.size.toNat ≤ r.offset.toNat + r.size.toNat)) exact := by
  show wp (_ >>= _) _ exact
  rw [wp_bind, wp_orThrow]
  cases hfind : findIn records lookup p.layer_id p.expert_id with
  | none => exact ⟨rfl, fun h => by cases h⟩
  | some r =>
    obtain ⟨hr, hl, he⟩ := h.find.mp hfind
    show wp (_ >>= _) _ exact
    rw [wp_bind, wp_throwIf]
    split
    · exact ⟨rfl, fun h => by cases h⟩
    next hrange =>
    obtain ⟨hstart, hend⟩ := not_or.mp hrange
    show wp (_ >>= _) _ exact
    rw [wp_bind]
    refine Watched.wp_add (Watched.exact_add (UInt64.not_lt.mp hend)) fun projectionEnd hp => ?_
    show wp (_ >>= _) _ exact
    rw [wp_bind]
    refine Watched.wp_add (h.valid r hr).bounded fun expertEnd hx => ?_
    show wp (throwIf _ _) _ exact
    rw [wp_throwIf]
    split
    · exact ⟨rfl, fun h => by cases h⟩
    next hends =>
    have hends' := UInt64.le_iff_toNat_le.mp (UInt64.not_lt.mp hends)
    have hstart' := UInt64.le_iff_toNat_le.mp (UInt64.not_lt.mp hstart)
    rw [hp, hx] at hends'
    exact ⟨rfl, fun _ => ⟨r, hr, hl, he, hstart', hends'⟩⟩

theorem wp_checkShape {p : ProjectionRecord} {dtype : DType} {exact : Bool}
    (hd : DType.ofCode p.dtype = some dtype) :
    wp (checkShape p) (fun result exact' => exact' = exact ∧ (result = .ok () → p.size.toNat =
      ((p.shape.toList.take p.rank.toNat).map UInt64.toNat).prod * dtype.sizeOf.toNat)) exact := by
  have hwidth : dtypeSize p.dtype = dtype.sizeOf := by
    unfold dtypeSize
    rw [hd]
    rfl
  show wp (_ >>= _) _ exact
  rw [wp_bind]
  refine Watched.wp_product _ 1 (fun elements he _ => ?_) ⟨rfl, fun h => by cases h⟩
    ⟨rfl, fun h => by cases h⟩
  rw [show (1 : UInt64).toNat = 1 from rfl, Nat.one_mul] at he
  show wp (_ >>= _) _ exact
  rw [wp_bind, wp_throwIf]
  split
  · exact ⟨rfl, fun h => by cases h⟩
  show wp (_ >>= _) _ exact
  rw [wp_bind, wp_throwIf]
  split
  · exact ⟨rfl, fun h => by cases h⟩
  next hle =>
  show wp (_ >>= _) _ exact
  rw [wp_bind, hwidth]
  rw [hwidth] at hle
  refine Watched.wp_mul (Watched.exact_mul (UInt64.not_lt.mp hle) dtype.sizeOf_ne_zero) fun bytes hb => ?_
  show wp (throwIf _ _) _ exact
  rw [wp_throwIf]
  split
  · exact ⟨rfl, fun h => by cases h⟩
  next hsize =>
  refine ⟨rfl, fun _ => ?_⟩
  rw [← Classical.not_not.mp hsize, hb, he]

theorem ProjectionsSeen.add {records : List ExpertRecord} {seen : List ProjectionRecord}
    {positions : Table UInt64 Positions} {p : ProjectionRecord} {found : Positions}
    (h : ProjectionsSeen records seen positions) (hp : ValidProjection records p)
    (hfound : found = (positions.lookup p.key).getD fun _ => none)
    (hnew : found p.projection_type = none) :
    ProjectionsSeen records (seen ++ [p]) (positions.insert p.key
      (Function.update found p.projection_type (some seen.length))) := by
  -- the positions of the key before, whether there were any or not
  have hbefore : ∀ t i, found t = some i ↔
      ∃ found, positions.lookup p.key = some found ∧ found t = some i := by
    intro t i
    rw [hfound]
    cases positions.lookup p.key with
    | none => simp
    | some f => simp
  refine ⟨fun p' hp' => ?_, fun k t i => ?_⟩
  · rcases List.mem_append.mp hp' with hp' | hp'
    · exact h.valid p' hp'
    · exact List.mem_singleton.mp hp' ▸ hp
  · rw [Table.lookup_insert']
    by_cases hk : k = p.key
    · subst hk
      rw [if_pos rfl]
      constructor
      · rintro ⟨f, hf, hi⟩
        obtain rfl := Option.some.inj hf
        by_cases ht : t = p.projection_type
        · subst ht
          rw [Function.update_self] at hi
          obtain rfl := Option.some.inj hi
          exact ⟨p, getElem?_concat.mpr (.inr ⟨rfl, rfl⟩), rfl, rfl⟩
        · rw [Function.update_of_ne ht] at hi
          obtain ⟨p', hp', hk', ht'⟩ := (h.found _ t i).mp ((hbefore t i).mp hi)
          exact ⟨p', getElem?_concat.mpr (.inl hp'), hk', ht'⟩
      · rintro ⟨p', hp', hk', rfl⟩
        refine ⟨_, rfl, ?_⟩
        rcases getElem?_concat.mp hp' with hp' | ⟨rfl, rfl⟩
        · have hi := (hbefore _ i).mpr ((h.found _ _ i).mpr ⟨p', hp', hk', rfl⟩)
          rw [Function.update_of_ne fun ht => by rw [ht, hnew] at hi; cases hi]
          exact hi
        · exact Function.update_self ..
    · rw [if_neg hk, h.found]
      constructor
      · rintro ⟨p', hp', hk', ht'⟩
        exact ⟨p', getElem?_concat.mpr (.inl hp'), hk', ht'⟩
      · rintro ⟨p', hp', hk', ht'⟩
        rcases getElem?_concat.mp hp' with hp' | ⟨rfl, rfl⟩
        · exact ⟨p', hp', hk', ht'⟩
        · exact absurd hk'.symm hk

theorem wp_place {index : Nat} {p : ProjectionRecord} {positions : Table UInt64 Positions}
    {exact : Bool} :
    wp (place index p positions) (fun result exact' => exact' = exact ∧ match result with
      | .ok positions' => ((positions.lookup p.key).getD fun _ => none) p.projection_type = none ∧
          positions' = positions.insert p.key (Function.update
            ((positions.lookup p.key).getD fun _ => none) p.projection_type (some index))
      | .error _ => True) exact := by
  show wp (_ >>= _) _ exact
  rw [wp_bind, wp_throwIf]
  split
  · exact ⟨rfl, trivial⟩
  next hnew => exact ⟨rfl, by simpa using hnew, rfl⟩

theorem wp_addProjection {records : List ExpertRecord} {lookup : Table UInt64 Nat}
    (hr : RecordsSeen records lookup) {seen : List ProjectionRecord}
    {positions : Table UInt64 Positions} (h : ProjectionsSeen records seen positions)
    {p : ProjectionRecord} {exact : Bool} :
    wp (addProjection records lookup seen.length p positions) (fun result exact' =>
      exact' = exact ∧ match result with
        | .ok positions' => ProjectionsSeen records (seen ++ [p]) positions'
        | .error _ => True) exact := by
  show wp (_ >>= _) _ exact
  rw [wp_bind, wp_throwIf]
  split
  · exact ⟨rfl, trivial⟩
  next hvalid =>
  simp only [not_or] at hvalid
  obtain ⟨hsize, hrank0, hrank, hdtype, hres, htres, htype⟩ := hvalid
  obtain ⟨dtype, hd⟩ := Option.ne_none_iff_exists'.mp (by simpa using hdtype)
  refine wp_seq (wp_checkRange hr) (fun u exact' hrange => ?_) fun e exact' he => ⟨he.1, trivial⟩
  obtain ⟨rfl, hinside⟩ := hrange
  refine wp_seq wp_place (fun positions' exact' hplace => ?_) fun e exact' he => ⟨he.1, trivial⟩
  obtain ⟨rfl, hnew, rfl⟩ := hplace
  refine wp_seq (wp_checkShape hd) (fun u' exact' hshape => ?_) fun e exact' he => ⟨he.1, trivial⟩
  obtain ⟨rfl, hshape⟩ := hshape
  have hlt : p.projection_type.toNat < 3 := by
    have hle := UInt32.le_iff_toNat_le.mp (UInt32.not_lt.mp htype)
    exact Nat.lt_succ_of_le hle
  exact ⟨rfl, h.add ⟨hlt, UInt32.le_iff_toNat_le.mp (UInt32.not_lt.mp hrank), hinside rfl, dtype, hd,
    hshape rfl⟩ rfl hnew⟩

/-! ## the constructor -/

theorem wp_rebuildLookup (records : List ExpertRecord) (projections : List ProjectionRecord)
    (exact : Bool) :
    wp (rebuildLookup records projections) (fun result exact' => exact' = exact ∧ match result with
      | .ok lookups => RecordsSeen records lookups.lookup ∧
          ProjectionsSeen records projections lookups.projectionLookup
      | .error _ => True) exact := by
  have hrecords : wp (forEach addRecord 0 ∅ records) (fun result exact' => match result with
      | .ok lookup => exact' = exact ∧ RecordsSeen records lookup
      | .error _ => exact' = exact) exact := by
    refine wp_mono (wp_forEach (I := fun seen lookup exact' =>
      exact' = exact ∧ RecordsSeen seen lookup) (E := fun _ exact' => exact' = exact) ?_
      ⟨rfl, recordsSeen_nil⟩) fun result exact' hr => by cases result <;> exact hr
    rintro seen r todo lookup exact' - ⟨rfl, h⟩
    refine wp_mono (wp_addRecord h) fun result exact' hr => ?_
    cases result with
    | ok lookup' => exact hr
    | error e => exact hr.1
  refine wp_seq hrecords (fun lookup exact' hl => ?_) fun e exact' he => ⟨he, trivial⟩
  obtain ⟨rfl, hl⟩ := hl
  have hprojections : wp (forEach (addProjection records lookup) 0 ∅ projections)
      (fun result exact'' => match result with
        | .ok positions => exact'' = exact' ∧ ProjectionsSeen records projections positions
        | .error _ => exact'' = exact') exact' := by
    refine wp_mono (wp_forEach (I := fun seen positions exact'' =>
      exact'' = exact' ∧ ProjectionsSeen records seen positions)
      (E := fun _ exact'' => exact'' = exact') ?_ ⟨rfl, projectionsSeen_nil⟩)
      fun result exact'' hr => by cases result <;> exact hr
    rintro seen p todo positions exact'' - ⟨rfl, h⟩
    refine wp_mono (wp_addProjection hl h) fun result exact'' hr => ?_
    cases result with
    | ok positions' => exact hr
    | error e => exact hr.1
  exact wp_seq hprojections (fun positions exact'' hp => ⟨hp.1, hl, hp.2⟩) fun e exact'' he => ⟨he, trivial⟩

namespace ExpertIndex

theorem seen (i : ExpertIndex) : RecordsSeen i.records i.lookups.lookup ∧
    ProjectionsSeen i.records i.projections i.lookups.projectionLookup := by
  have h := (wp_rebuildLookup i.records i.projections true).2
  rw [i.built] at h
  exact h

end ExpertIndex

end HyperMoE.Storage
