import HyperMoE.Metadata.Tokens
import Mathlib.Data.List.Perm.Basic

/-!
# The language of the parser

The parser accepts exactly the texts of the grammar, each with its denotation.

* `emplace_isMap`, `emplace_isSome`        the map of an object: sorted keys, no two equal;
* `derives_arrayLoop`, `derives_objectLoop`   what the loops take;
* `takes_arrayLoop`, `takes_objectLoop`       they take every text of the grammar;
* `derives_parseValue`, `takes_parseValue`    by induction on the levels;
* `parseJson_iff`                             a whole text.
-/

namespace HyperMoE.Metadata

open Lib Lib.Fallible Lib.Parsing

variable {α β : Type} {s : Input}

/-! ## the map of an object -/

theorem keyLess_irrefl (k : Text) : keyLess k k = false := by
  induction k with
  | nil => rfl
  | cons a as ih =>
    unfold keyLess
    rw [if_pos rfl]
    exact ih

theorem keyLess_trans {k l m : Text} (h : keyLess k l = true) (h' : keyLess l m = true) :
    keyLess k m = true := by
  induction k generalizing l m with
  | nil => cases l <;> cases m <;> first | rfl | simp [keyLess] at h h'
  | cons a as ih =>
    match l, m, h, h' with
    | b :: bs, c :: cs, h, h' =>
      unfold keyLess at h h' ⊢
      split at h
      · next hab =>
        subst hab
        split at h'
        · next hac =>
          rw [if_pos hac]
          exact ih h h'
        · next hac =>
          rw [if_neg hac]
          exact h'
      · next hab =>
        have hlt := of_decide_eq_true h
        split at h'
        · next hbc =>
          subst hbc
          rw [if_neg hab]
          exact h
        · next hbc =>
          have hlt' := UInt8.lt_trans hlt (of_decide_eq_true h')
          rw [if_neg (UInt8.ne_of_lt hlt')]
          exact decide_eq_true hlt'

theorem keyLess_of_ne {k l : Text} (hne : k ≠ l) (h : ¬ keyLess k l = true) : keyLess l k = true := by
  induction k generalizing l with
  | nil =>
    cases l with
    | nil => exact absurd rfl hne
    | cons b bs => exact absurd rfl h
  | cons a as ih =>
    cases l with
    | nil => rfl
    | cons b bs =>
      unfold keyLess at h ⊢
      split at h
      · next hab =>
        subst hab
        rw [if_pos rfl]
        exact ih (fun h' => hne (by rw [h'])) h
      · next hab =>
        rw [if_neg (Ne.symm hab)]
        rw [decide_eq_true_iff, UInt8.not_lt] at h
        exact decide_eq_true (UInt8.lt_of_le_of_ne h (Ne.symm hab))

theorem ne_of_keyLess {k l : Text} (h : keyLess k l = true) : k ≠ l := by
  rintro rfl
  rw [keyLess_irrefl] at h
  exact Bool.false_ne_true h

/-- what `std::map` keeps -/
def Sorted (entries : List (Text × JsonValue)) : Prop :=
  entries.Pairwise fun a b => keyLess a.1 b.1 = true

theorem emplace_mem {key : Text} {value : JsonValue} {object object' : List (Text × JsonValue)}
    (h : emplace key value object = some object') : object'.Perm ((key, value) :: object) := by
  induction object generalizing object' with
  | nil =>
    obtain rfl := Option.some.inj h
    exact .refl _
  | cons entry entries ih =>
    unfold emplace at h
    split at h
    · obtain rfl := Option.some.inj h
      exact .refl _
    · split at h
      · exact nomatch h
      · obtain ⟨rest, hrest, rfl⟩ := Option.map_eq_some_iff.mp h
        exact ((ih hrest).cons entry).trans (.swap ..)

theorem emplace_sorted {key : Text} {value : JsonValue} {object object' : List (Text × JsonValue)}
    (hs : Sorted object) (h : emplace key value object = some object') : Sorted object' := by
  induction object generalizing object' with
  | nil =>
    obtain rfl := Option.some.inj h
    exact List.pairwise_singleton ..
  | cons entry entries ih =>
    unfold Sorted at hs
    rw [List.pairwise_cons] at hs
    unfold emplace at h
    split at h
    · next hlt =>
      obtain rfl := Option.some.inj h
      refine List.pairwise_cons.mpr ⟨fun e he => ?_, List.pairwise_cons.mpr hs⟩
      rcases List.mem_cons.mp he with rfl | he
      · exact hlt
      · exact keyLess_trans hlt (hs.1 e he)
    · next hlt =>
      split at h
      · exact nomatch h
      · next hne =>
        obtain ⟨rest, hrest, rfl⟩ := Option.map_eq_some_iff.mp h
        refine List.pairwise_cons.mpr ⟨fun e he => ?_, ih hs.2 hrest⟩
        rcases List.mem_cons.mp ((emplace_mem hrest).mem_iff.mp he) with rfl | he
        · exact keyLess_of_ne hne hlt
        · exact hs.1 e he

theorem emplace_isMap {key : Text} {value : JsonValue}
    {object object' members entries : List (Text × JsonValue)}
    (h : emplace key value object = some object') (hmap : IsMap (object' ++ members) entries) :
    IsMap (object ++ (key, value) :: members) entries :=
  ⟨hmap.1, hmap.2.trans (((emplace_mem h).append_right members).trans List.perm_middle.symm)⟩

theorem emplace_isSome {key : Text} (value : JsonValue) {object : List (Text × JsonValue)}
    (hnew : ∀ e ∈ object, e.1 ≠ key) : ∃ object', emplace key value object = some object' := by
  induction object with
  | nil => exact ⟨_, rfl⟩
  | cons entry entries ih =>
    obtain ⟨object', h⟩ := ih fun e he => hnew e (List.mem_cons_of_mem _ he)
    unfold emplace
    split
    · exact ⟨_, rfl⟩
    · rw [if_neg (Ne.symm (hnew entry List.mem_cons_self)), h]
      exact ⟨_, rfl⟩

/-- the keys of members that a map has are distinct -/
theorem IsMap.nodup {members entries : List (Text × JsonValue)} (h : IsMap members entries) :
    (members.map Prod.fst).Nodup := by
  have hentries : (entries.map Prod.fst).Nodup :=
    List.pairwise_map.mpr (h.1.imp fun hlt => ne_of_keyLess hlt)
  exact (h.2.map Prod.fst).nodup_iff.mp hentries

/-- a map has one list of entries -/
theorem IsMap.eq {members entries entries' : List (Text × JsonValue)} (h : IsMap members entries)
    (h' : IsMap members entries') : entries = entries' := by
  refine (h.2.trans h'.2.symm).eq_of_pairwise (fun a b _ _ hab hba => ?_) h.1 h'.1
  exact absurd rfl (ne_of_keyLess (keyLess_trans hab hba))

/-! ## soundness -/

/-- an element inside `depth` arrays and objects, within the limit -/
def IsElementAt (depth : Nat) (raw : Text) (v : JsonValue) : Prop :=
  ∃ levels, levels + depth = 128 ∧ IsElement levels raw v

theorem IsElement.prepend {levels : Nat} {w raw : Text} {v : JsonValue} (hw : IsWhitespace w)
    (h : IsElement levels raw v) : IsElement levels (w ++ raw) v := by
  cases h with
  | mk hw' h =>
    rw [← List.append_assoc]
    exact .mk (hw.append hw') h

theorem IsItems.prepend {levels : Nat} {w raw : Text} {items : List JsonValue} (hw : IsWhitespace w)
    (h : IsItems levels raw items) : IsItems levels (w ++ raw) items := by
  cases h with
  | one h hw' =>
    rw [← List.append_assoc]
    exact .one (h.prepend hw) hw'
  | more h hw' hs =>
    rw [← List.append_assoc]
    exact .more (h.prepend hw) hw' hs

theorem IsMember.prepend {levels : Nat} {w raw : Text} {m : Text × JsonValue} (hw : IsWhitespace w)
    (h : IsMember levels raw m) : IsMember levels (w ++ raw) m := by
  cases h with
  | mk hw' hname hw'' h =>
    rw [← List.append_assoc]
    exact .mk (hw.append hw') hname hw'' h

theorem IsMembers.prepend {levels : Nat} {w raw : Text} {members : List (Text × JsonValue)}
    (hw : IsWhitespace w) (h : IsMembers levels raw members) : IsMembers levels (w ++ raw) members := by
  cases h with
  | one h hw' =>
    rw [← List.append_assoc]
    exact .one (h.prepend hw) hw'
  | more h hw' hs =>
    rw [← List.append_assoc]
    exact .more (h.prepend hw) hw' hs

section
variable {parseItem : Code JsonValue} {depth : Nat}

/-- after an element: the end, or a separator and the loop again -/
theorem derives_separator {close : UInt8} {message : String} {result : β} {again : Code β}
    {G : Text → β → Prop} (hclose : ∀ w, IsWhitespace w → G (w ++ [close]) result)
    (hagain : ∀ s' : Input, s'.rest.length < s.rest.length →
      Derives (fun raw v => ∀ w, IsWhitespace w → G (w ++ 0x2c :: raw) v) again s') :
    Derives G (do
      let closed ← consume close
      if closed then return result
      else do
        let more ← consume 0x2c
        failIf (more = false) message
        again) s := by
  refine (derives_consume close).bind fun raw closed s₁ hs₁ _ hraw => Derives.ite (fun hc => ?_) fun hc => ?_
  · rw [if_pos hc] at hraw
    obtain ⟨w, hw, rfl⟩ := hraw
    refine Derives.pure ?_
    rw [List.append_nil]
    exact hclose w hw
  · rw [if_neg hc] at hraw
    refine (derives_consume 0x2c).bind fun raw' more s₂ hs₂ _ hraw' => Derives.failIf fun hmore => ?_
    rw [Bool.not_eq_false] at hmore
    rw [if_pos hmore] at hraw'
    obtain ⟨w, hw, rfl⟩ := hraw'
    have hlen : s₂.rest.length < s.rest.length := by
      rw [hs₁, hs₂]
      simp only [List.length_append, List.length_singleton]
      omega
    refine (hagain s₂ hlen).mono fun raw' v _ _ h => ?_
    have h' := h (raw ++ w) (hraw.append hw)
    simp only [List.append_assoc, List.singleton_append] at h' ⊢
    exact h'

theorem derives_arrayLoop (hitem : ∀ s, Derives (IsElementAt depth) parseItem s) (fuel : Nat)
    (array : List JsonValue) (hs : s.rest.length < fuel) :
    Derives (fun raw result => ∃ levels raw' items, levels + depth = 128 ∧ raw = raw' ++ [0x5d] ∧
      IsItems levels raw' items ∧ result = array ++ items) (arrayLoop parseItem fuel array) s := by
  induction fuel generalizing array s with
  | zero => exact absurd hs (Nat.not_lt_zero _)
  | succ fuel ih =>
    refine (hitem s).bind fun raw item s₁ hs₁ _ hraw => ?_
    obtain ⟨levels, hlevels, hitem'⟩ := hraw
    refine derives_separator (fun w hw => ?_) fun s₂ hs₂ => ?_
    · exact ⟨levels, raw ++ w, [item], hlevels, (List.append_assoc ..).symm, .one hitem' hw, rfl⟩
    · have hs₂' : s₂.rest.length < fuel := by
        rw [hs₁, List.length_append] at hs
        omega
      refine (ih (array ++ [item]) hs₂').mono fun raw' result _ _ h w hw => ?_
      obtain ⟨levels', raw'', items, hlevels', rfl, hitems, rfl⟩ := h
      obtain rfl : levels' = levels := by omega
      refine ⟨levels', raw ++ (w ++ 0x2c :: raw''), item :: items, hlevels', ?_, .more hitem' hw hitems, ?_⟩
      · simp only [List.append_assoc, List.cons_append]
      · rw [List.append_assoc]
        rfl

theorem derives_parseArray {rest : Text} (hitem : ∀ s, Derives (IsElementAt (depth + 1)) parseItem s)
    (hs : s.rest = 0x5b :: rest) (hdepth : depth ≤ 128) :
    Derives (fun raw items => IsValue (128 - depth) raw (.array items)) (parseArray parseItem) s := by
  refine ((derives_consume 0x5b).bind fun raw opened s₁ hs₁ _ hraw => Derives.failIf fun hopened => ?_)
  rw [Bool.not_eq_false] at hopened
  rw [if_pos hopened] at hraw
  obtain ⟨w, hw, rfl⟩ := hraw
  rw [hs, List.append_assoc] at hs₁
  obtain rfl := hw.eq_nil hs₁ rfl
  refine (derives_consume 0x5d).bind fun raw closed s₂ _ _ hraw => Derives.ite (fun hc => ?_) fun hc => ?_
  · rw [if_pos hc] at hraw
    obtain ⟨w, hw, rfl⟩ := hraw
    refine Derives.pure ?_
    rw [List.append_nil]
    exact .emptyArray hw
  · rw [if_neg hc] at hraw
    refine Derives.read ((derives_arrayLoop hitem _ [] (Nat.lt_succ_self _)).mono fun raw' _ _ _ h => ?_)
    obtain ⟨levels, raw'', items, hlevels, rfl, hitems, rfl⟩ := h
    have hlevels' : 128 - depth = levels + 1 := by omega
    rw [hlevels', ← List.append_assoc raw]
    exact .array (hitems.prepend hraw)

theorem derives_parseMember (hitem : ∀ s, Derives (IsElementAt depth) parseItem s)
    (object : List (Text × JsonValue)) :
    Derives (fun raw object' => ∃ levels key value, levels + depth = 128 ∧
      IsMember levels raw (key, value) ∧ emplace key value object = some object')
      (parseMember parseItem object) s := by
  refine derives_skipWhitespace.bind fun w _ s₁ _ _ hw => Derives.read (Derives.failIf fun _ => ?_)
  refine derives_parseString.bind fun name key s₂ _ _ hname => ?_
  obtain ⟨w', name, rfl, hw', hname⟩ := hname
  refine (derives_consume 0x3a).bind fun raw colon s₃ _ _ hraw => Derives.failIf fun hcolon => ?_
  rw [Bool.not_eq_false] at hcolon
  rw [if_pos hcolon] at hraw
  obtain ⟨w'', hw'', rfl⟩ := hraw
  refine (hitem s₃).bind fun raw value s₄ _ _ hraw => ?_
  obtain ⟨levels, hlevels, hvalue⟩ := hraw
  cases he : emplace key value object with
  | none => exact derives_fail _
  | some object' =>
    refine Derives.pure ⟨levels, key, value, hlevels, ?_, he⟩
    have hmember := IsMember.mk (hw.append hw') hname hw'' hvalue
    simp only [List.append_assoc, List.append_nil, List.singleton_append] at hmember ⊢
    exact hmember

theorem derives_objectLoop (hitem : ∀ s, Derives (IsElementAt depth) parseItem s) (fuel : Nat)
    (object : List (Text × JsonValue)) (hsorted : Sorted object) (hs : s.rest.length < fuel) :
    Derives (fun raw entries => ∃ levels raw' members, levels + depth = 128 ∧ raw = raw' ++ [0x7d] ∧
      IsMembers levels raw' members ∧ IsMap (object ++ members) entries)
      (objectLoop parseItem fuel object) s := by
  induction fuel generalizing object s with
  | zero => exact absurd hs (Nat.not_lt_zero _)
  | succ fuel ih =>
    refine (derives_parseMember hitem object).bind fun raw object' s₁ hs₁ _ hraw => ?_
    obtain ⟨levels, key, value, hlevels, hmember, he⟩ := hraw
    have hsorted' := emplace_sorted hsorted he
    refine derives_separator (fun w hw => ?_) fun s₂ hs₂ => ?_
    · refine ⟨levels, raw ++ w, [(key, value)], hlevels, (List.append_assoc ..).symm, .one hmember hw, ?_⟩
      refine emplace_isMap he ⟨hsorted', ?_⟩
      rw [List.append_nil]
    · have hs₂' : s₂.rest.length < fuel := by
        rw [hs₁, List.length_append] at hs
        omega
      refine (ih object' hsorted' hs₂').mono fun raw' result _ _ h w hw => ?_
      obtain ⟨levels', raw'', members, hlevels', rfl, hmembers, hmap⟩ := h
      obtain rfl : levels' = levels := by omega
      refine ⟨levels', raw ++ (w ++ 0x2c :: raw''), (key, value) :: members, hlevels', ?_,
        .more hmember hw hmembers, emplace_isMap he hmap⟩
      simp only [List.append_assoc, List.cons_append]

theorem derives_parseObject {rest : Text} (hitem : ∀ s, Derives (IsElementAt (depth + 1)) parseItem s)
    (hs : s.rest = 0x7b :: rest) (hdepth : depth ≤ 128) :
    Derives (fun raw entries => IsValue (128 - depth) raw (.object entries)) (parseObject parseItem) s := by
  refine ((derives_consume 0x7b).bind fun raw opened s₁ hs₁ _ hraw => Derives.failIf fun hopened => ?_)
  rw [Bool.not_eq_false] at hopened
  rw [if_pos hopened] at hraw
  obtain ⟨w, hw, rfl⟩ := hraw
  rw [hs, List.append_assoc] at hs₁
  obtain rfl := hw.eq_nil hs₁ rfl
  refine (derives_consume 0x7d).bind fun raw closed s₂ _ _ hraw => Derives.ite (fun hc => ?_) fun hc => ?_
  · rw [if_pos hc] at hraw
    obtain ⟨w, hw, rfl⟩ := hraw
    refine Derives.pure ?_
    rw [List.append_nil]
    exact .emptyObject hw
  · rw [if_neg hc] at hraw
    refine Derives.read ((derives_objectLoop hitem _ [] List.Pairwise.nil (Nat.lt_succ_self _)).mono
      fun raw' _ _ _ h => ?_)
    obtain ⟨levels, raw'', members, hlevels, rfl, hmembers, hmap⟩ := h
    have hlevels' : 128 - depth = levels + 1 := by omega
    rw [hlevels', ← List.append_assoc raw]
    exact .object (hmembers.prepend hraw) hmap

/-- a converted result -/
theorem Derives.map {x : Code α} {f : α → β} {G : Text → β → Prop}
    (h : Derives (fun raw a => G raw (f a)) x s) :
    Derives G (x >>= fun a => pure (f a) : Code β) s := by
  refine h.bind fun raw a s' _ _ ha => Derives.pure ?_
  rw [List.append_nil]
  exact ha

theorem derives_parseToken {character : UInt8} {rest : Text}
    (hitem : ∀ s, Derives (IsElementAt (depth + 1)) parseItem s) (hs : s.rest = character :: rest)
    (hdepth : depth ≤ 128) : Derives (IsValue (128 - depth)) (parseToken parseItem character) s := by
  have hne : s.rest ≠ [] := hs ▸ List.cons_ne_nil _ _
  refine Derives.ite (fun _ => ?_) fun _ => Derives.ite (fun _ => ?_) fun _ => Derives.ite (fun _ => ?_)
    fun _ => Derives.ite (fun hc => ?_) fun _ => Derives.ite (fun hc => ?_) fun _ =>
    Derives.ite (fun hc => ?_) fun _ => Derives.ite (fun _ => ?_) fun _ => derives_fail _
  · refine Derives.map ((derives_parseLiteral _).mono fun raw _ _ _ h => ?_)
    rw [h]
    exact .null
  · refine Derives.map ((derives_parseLiteral _).mono fun raw _ _ _ h => ?_)
    rw [h]
    exact .true
  · refine Derives.map ((derives_parseLiteral _).mono fun raw _ _ _ h => ?_)
    rw [h]
    exact .false
  · refine Derives.map (derives_parseString.mono fun raw value rest' hrest h => ?_)
    obtain ⟨w, name, rfl, hw, hname⟩ := h
    rw [hs, hc, List.append_assoc] at hrest
    obtain rfl := hw.eq_nil hrest rfl
    exact .string hname
  · rw [hc] at hs
    exact Derives.map (derives_parseArray hitem hs hdepth)
  · rw [hc] at hs
    exact Derives.map (derives_parseObject hitem hs hdepth)
  · refine Derives.map ((derives_parseNumber hne).mono fun raw value _ _ h => ?_)
    rw [h.2]
    exact .number h.1

end

theorem derives_parseValue (levels : Nat) {depth : Nat} (hlevels : levels + depth = 130)
    (hdepth : depth ≤ 129) : Derives (IsElementAt depth) (parseValue levels depth) s := by
  induction levels generalizing depth s with
  | zero => omega
  | succ levels ih =>
    refine Derives.failIf fun hlimit => derives_skipWhitespace.bind fun w _ s₁ _ _ hw => ?_
    refine Derives.read (Derives.failIf fun hne => Derives.peek hne fun character rest hs => ?_)
    have hitem : ∀ s, Derives (IsElementAt (depth + 1)) (parseValue levels (depth + 1)) s := fun s =>
      ih (by omega) (by omega)
    refine (derives_parseToken hitem hs (by omega)).mono fun raw v _ _ h => ?_
    exact ⟨128 - depth, by omega, .mk hw h⟩

/-! ## completeness -/

theorem IsNumber.head {raw : Text} (h : IsNumber raw) :
    ∃ b rest, raw = b :: rest ∧ (b = 0x2d ∨ isDigit b = true) := by
  obtain ⟨hminus, hint, hfrac, hexp⟩ := h
  obtain ⟨d, ds, rfl, hd⟩ := hint.head
  rcases hminus with rfl | rfl
  · exact ⟨d, _, rfl, .inr hd⟩
  · exact ⟨0x2d, _, rfl, .inl rfl⟩

/-- the bytes that a value may begin with -/
def IsStart (b : UInt8) : Prop :=
  b ∈ ([0x6e, 0x74, 0x66, 0x22, 0x5b, 0x7b, 0x2d] : Text) ∨ isDigit b = true

theorem IsStart.excludes {p : UInt8 → Bool} {b : UInt8} (h : IsStart b)
    (hp : ([0x6e, 0x74, 0x66, 0x22, 0x5b, 0x7b, 0x2d, 0x30, 0x31, 0x32, 0x33, 0x34, 0x35, 0x36,
      0x37, 0x38, 0x39] : Text).any p = false) : p b = false := by
  have hdigits : ∀ n : Fin 256, isDigit (UInt8.ofNat n) = true → UInt8.ofNat n ∈
      ([0x30, 0x31, 0x32, 0x33, 0x34, 0x35, 0x36, 0x37, 0x38, 0x39] : Text) := by decide +kernel
  refine Bool.eq_false_iff.mpr (List.any_eq_false.mp hp b ?_)
  rcases h with h | h
  · exact List.mem_append_left [0x30, 0x31, 0x32, 0x33, 0x34, 0x35, 0x36, 0x37, 0x38, 0x39] h
  · have hb := hdigits ⟨b.toNat, b.toNat_lt⟩
    rw [UInt8.ofNat_toNat] at hb
    exact List.mem_append_right [0x6e, 0x74, 0x66, 0x22, 0x5b, 0x7b, 0x2d] (hb h)

theorem IsValue.head {levels : Nat} {raw : Text} {v : JsonValue} (h : IsValue levels raw v) :
    ∃ b rest, raw = b :: rest ∧ IsStart b := by
  cases h with
  | null => exact ⟨0x6e, _, rfl, .inl (by decide)⟩
  | true => exact ⟨0x74, _, rfl, .inl (by decide)⟩
  | false => exact ⟨0x66, _, rfl, .inl (by decide)⟩
  | number h =>
    obtain ⟨b, rest, rfl, hb⟩ := h.head
    exact ⟨b, rest, rfl, hb.imp_left fun h => by rw [h]; decide⟩
  | string h =>
    obtain ⟨chars, rfl, -⟩ := h
    exact ⟨quote, _, rfl, .inl (by decide)⟩
  | emptyArray hw => exact ⟨0x5b, _, rfl, .inl (by decide)⟩
  | array h => exact ⟨0x5b, _, rfl, .inl (by decide)⟩
  | emptyObject hw => exact ⟨0x7b, _, rfl, .inl (by decide)⟩
  | object h hmap => exact ⟨0x7b, _, rfl, .inl (by decide)⟩

/-- the white space before the first element, and the byte after it -/
theorem IsItems.split {levels : Nat} {raw : Text} {items : List JsonValue} (h : IsItems levels raw items) :
    ∃ w b t, raw = w ++ b :: t ∧ IsWhitespace w ∧ IsItems levels (b :: t) items ∧ IsStart b := by
  cases h with
  | one h hw =>
    obtain ⟨hw', h⟩ := h
    obtain ⟨b, t, rfl, hb⟩ := h.head
    refine ⟨_, b, _, List.append_assoc .., hw', ?_, hb⟩
    exact .one (.mk IsWhitespace.nil h) hw
  | more h hw hs =>
    obtain ⟨hw', h⟩ := h
    obtain ⟨b, t, rfl, hb⟩ := h.head
    refine ⟨_, b, _, List.append_assoc .., hw', ?_, hb⟩
    exact .more (.mk IsWhitespace.nil h) hw hs

theorem IsMembers.split {levels : Nat} {raw : Text} {members : List (Text × JsonValue)}
    (h : IsMembers levels raw members) : ∃ w t, raw = w ++ quote :: t ∧ IsWhitespace w ∧
      IsMembers levels (quote :: t) members := by
  cases h with
  | one h hw =>
    obtain ⟨hw', hname, hw'', h⟩ := h
    have hmember := IsMember.mk IsWhitespace.nil hname hw'' h
    obtain ⟨chars, rfl, hchars⟩ := hname
    exact ⟨_, _, List.append_assoc .., hw', .one hmember hw⟩
  | more h hw hs =>
    obtain ⟨hw', hname, hw'', h⟩ := h
    have hmember := IsMember.mk IsWhitespace.nil hname hw'' h
    obtain ⟨chars, rfl, hchars⟩ := hname
    exact ⟨_, _, List.append_assoc .., hw', .more hmember hw hs⟩

theorem stops_cons {p : UInt8 → Bool} {b : UInt8} {rest : Text} (h : p b = false) :
    Stops p (b :: rest) := fun _ hc => Option.some.inj hc ▸ h

/-- white space and a separator or an end may follow a value -/
theorem delimited_append {w rest : Text} {b : UInt8} (hw : IsWhitespace w)
    (hb : b = 0x2c ∨ b = 0x5d ∨ b = 0x7d) : Delimited (w ++ b :: rest) := by
  cases w with
  | nil => exact fun c hc => .inr (Option.some.inj hc ▸ hb)
  | cons c w => exact fun d hd => .inl (Option.some.inj hd ▸ hw.isSpace c List.mem_cons_self)

theorem IsWhitespace.delimited {w : Text} (hw : IsWhitespace w) : Delimited w := by
  cases w with
  | nil => exact fun c hc => nomatch hc
  | cons c w => exact fun d hd => .inl (Option.some.inj hd ▸ hw.isSpace c List.mem_cons_self)

section
variable {parseItem : Code JsonValue} {levels : Nat}

/-- the parser of the elements takes every element -/
def TakesElements (levels : Nat) (parseItem : Code JsonValue) : Prop :=
  ∀ {raw : Text} {v : JsonValue} (rest : Text), IsElement levels raw v → Delimited rest →
    Takes parseItem raw v rest

theorem takes_close {close : UInt8} {message : String} {result : β} {again : Code β} {w : Text}
    (rest : Text) (hw : IsWhitespace w) (hclose : isSpace close = false) :
    Takes (do
      let closed ← consume close
      if closed then return result
      else do
        let more ← consume 0x2c
        failIf (more = false) message
        again) (w ++ [close]) result rest :=
  (takes_consume hw hclose).bind_nil (Takes.pure result rest)

theorem takes_again {close : UInt8} {message : String} {result v : β} {again : Code β}
    {w raw rest : Text} (hw : IsWhitespace w) (hclose : close ≠ 0x2c) (h : Takes again raw v rest) :
    Takes (do
      let closed ← consume close
      if closed then return result
      else do
        let more ← consume 0x2c
        failIf (more = false) message
        again) (w ++ 0x2c :: raw) v rest := by
  refine (takes_consume_of_ne hw (stops_cons rfl) fun h => ?_).bind ?_
  · exact hclose (Option.some.inj h).symm
  · exact takes_expected rfl h

theorem takes_arrayLoop (hitem : TakesElements levels parseItem) {raw rest : Text}
    {items : List JsonValue} (h : IsItems levels raw items) (fuel : Nat) (array : List JsonValue)
    (hfuel : raw.length < fuel) :
    Takes (arrayLoop parseItem fuel array) (raw ++ [0x5d]) (array ++ items) rest := by
  induction items generalizing raw fuel array with
  | nil => exact nomatch h
  | cons v items ih =>
    obtain ⟨fuel, rfl⟩ := Nat.exists_eq_succ_of_ne_zero (Nat.ne_zero_of_lt hfuel)
    cases h with
    | one h hw =>
      rw [List.append_assoc]
      refine (hitem _ h ?_).bind (takes_close rest hw rfl)
      rw [List.append_assoc]
      exact delimited_append hw (.inr (.inl rfl))
    | @more _ raw w raw' _ _ h hw hs =>
      have hlen : raw'.length < fuel := by
        simp only [List.length_append, List.length_cons] at hfuel
        omega
      have hagain := ih hs fuel (array ++ [v]) hlen
      rw [List.append_assoc array] at hagain
      have htext : raw ++ (w ++ 0x2c :: raw') ++ [0x5d] = raw ++ (w ++ 0x2c :: (raw' ++ [0x5d])) := by
        simp only [List.append_assoc, List.cons_append]
      rw [htext]
      refine (hitem _ h ?_).bind (takes_again hw (by decide) hagain)
      rw [List.append_assoc]
      exact delimited_append hw (.inl rfl)

theorem takes_parseArray {w rest : Text} (hw : IsWhitespace w) :
    Takes (parseArray parseItem) (0x5b :: (w ++ [0x5d])) [] rest := by
  exact takes_expected rfl ((takes_consume hw rfl).bind_nil (Takes.pure [] rest))

theorem takes_parseArray_items (hitem : TakesElements levels parseItem) {raw rest : Text}
    {items : List JsonValue} (h : IsItems levels raw items) :
    Takes (parseArray parseItem) (0x5b :: (raw ++ [0x5d])) items rest := by
  obtain ⟨w, b, t, rfl, hw, h, hb⟩ := h.split
  rw [List.append_assoc]
  refine takes_expected rfl ((takes_consume_of_ne hw (stops_cons (hb.excludes rfl)) fun h => ?_).bind
    (Takes.ite (fun h => absurd h Bool.false_ne_true) fun _ => Takes.read fun position => ?_))
  · have hne := hb.excludes (p := fun b => b = 0x5d) rfl
    exact of_decide_eq_false hne (Option.some.inj h)
  · refine takes_arrayLoop hitem h _ [] ?_
    simp only [List.length_append, List.length_cons]
    omega

theorem takes_parseMember (hitem : TakesElements levels parseItem) {raw rest key : Text}
    {v : JsonValue} {object object' : List (Text × JsonValue)} (h : IsMember levels raw (key, v))
    (hrest : Delimited rest) (he : emplace key v object = some object') :
    Takes (parseMember parseItem object) raw object' rest := by
  cases h with
  | @mk _ w name w' raw _ _ hw hname hw' h =>
    have hquote : ∃ t, name = quote :: t := by
      obtain ⟨chars, rfl, -⟩ := hname
      exact ⟨_, rfl⟩
    obtain ⟨t, ht⟩ := hquote
    refine (takes_skipWhitespace hw (by rw [ht]; exact stops_cons rfl)).bind (Takes.read fun position => ?_)
    refine Takes.failIf (by rw [ht]; exact not_not.mpr rfl) ?_
    refine (takes_parseString hname).bind ?_
    have htext : w' ++ 0x3a :: raw = (w' ++ [0x3a]) ++ raw := by rw [List.append_assoc]; rfl
    rw [htext]
    refine (takes_consume hw' rfl).bind (Takes.failIf Bool.noConfusion ?_)
    refine (hitem rest h hrest).bind_nil ?_
    rw [he]
    exact Takes.pure object' rest

theorem emplace_of_isMap {key : Text} {v : JsonValue} {object members entries : List (Text × JsonValue)}
    (hmap : IsMap (object ++ (key, v) :: members) entries) :
    ∃ object', emplace key v object = some object' ∧ IsMap (object' ++ members) entries := by
  have hnew : ∀ e ∈ object, e.1 ≠ key := by
    intro e he
    have hnodup := hmap.nodup
    rw [List.map_append, List.nodup_append] at hnodup
    exact hnodup.2.2 e.1 (List.mem_map_of_mem he) key List.mem_cons_self
  obtain ⟨object', he⟩ := emplace_isSome v hnew
  refine ⟨object', he, hmap.1, ?_⟩
  exact hmap.2.trans (List.perm_middle.trans ((emplace_mem he).append_right members).symm)

theorem takes_objectLoop (hitem : TakesElements levels parseItem) {raw rest : Text}
    {members entries : List (Text × JsonValue)} (h : IsMembers levels raw members) (fuel : Nat)
    (object : List (Text × JsonValue)) (hsorted : Sorted object)
    (hmap : IsMap (object ++ members) entries) (hfuel : raw.length < fuel) :
    Takes (objectLoop parseItem fuel object) (raw ++ [0x7d]) entries rest := by
  induction members generalizing raw fuel object with
  | nil => exact nomatch h
  | cons m members ih =>
    obtain ⟨fuel, rfl⟩ := Nat.exists_eq_succ_of_ne_zero (Nat.ne_zero_of_lt hfuel)
    obtain ⟨object', he, hmap'⟩ := emplace_of_isMap hmap
    have hsorted' := emplace_sorted hsorted he
    cases h with
    | one h hw =>
      rw [List.append_nil] at hmap'
      obtain rfl := hmap'.eq ⟨hsorted', .refl _⟩
      rw [List.append_assoc]
      refine (takes_parseMember hitem h ?_ he).bind (takes_close rest hw rfl)
      rw [List.append_assoc]
      exact delimited_append hw (.inr (.inr rfl))
    | @more _ raw w raw' _ _ h hw hs =>
      have hlen : raw'.length < fuel := by
        simp only [List.length_append, List.length_cons] at hfuel
        omega
      have hagain := ih hs fuel object' hsorted' hmap' hlen
      have htext : raw ++ (w ++ 0x2c :: raw') ++ [0x7d] = raw ++ (w ++ 0x2c :: (raw' ++ [0x7d])) := by
        simp only [List.append_assoc, List.cons_append]
      rw [htext]
      refine (takes_parseMember hitem h ?_ he).bind (takes_again hw (by decide) hagain)
      rw [List.append_assoc]
      exact delimited_append hw (.inl rfl)

theorem takes_parseObject {w rest : Text} (hw : IsWhitespace w) :
    Takes (parseObject parseItem) (0x7b :: (w ++ [0x7d])) [] rest := by
  exact takes_expected rfl ((takes_consume hw rfl).bind_nil (Takes.pure [] rest))

theorem takes_parseObject_members (hitem : TakesElements levels parseItem) {raw rest : Text}
    {members entries : List (Text × JsonValue)} (h : IsMembers levels raw members)
    (hmap : IsMap members entries) :
    Takes (parseObject parseItem) (0x7b :: (raw ++ [0x7d])) entries rest := by
  obtain ⟨w, t, rfl, hw, h⟩ := h.split
  rw [List.append_assoc]
  refine takes_expected rfl ((takes_consume_of_ne hw (stops_cons rfl) fun h => ?_).bind
    (Takes.ite (fun h => absurd h Bool.false_ne_true) fun _ => Takes.read fun position => ?_))
  · exact absurd (Option.some.inj h) (by decide)
  · refine takes_objectLoop hitem h _ [] List.Pairwise.nil hmap ?_
    simp only [List.length_append, List.length_cons]
    omega

end

theorem takes_map {x : Code α} {f : α → β} {raw rest : Text} {a : α} (h : Takes x raw a rest) :
    Takes (x >>= fun a => pure (f a) : Code β) raw (f a) rest := h.bind_nil (Takes.pure _ rest)

/-- one step of `parseValue`, from its first byte on -/
theorem takes_parseToken {levels : Nat} {parseItem : Code JsonValue}
    (hitem : ∀ l, l + 1 = levels → TakesElements l parseItem) {b : UInt8} {t rest : Text} {v : JsonValue}
    (h : IsValue levels (b :: t) v) (hrest : Delimited rest) :
    Takes (parseToken parseItem b) (b :: t) v rest := by
  generalize hraw : b :: t = raw at h ⊢
  cases h with
  | null =>
    obtain ⟨rfl, -⟩ := List.cons.inj hraw
    exact takes_map (takes_parseLiteral (ascii "null") rest)
  | true =>
    obtain ⟨rfl, -⟩ := List.cons.inj hraw
    exact takes_map (takes_parseLiteral (ascii "true") rest)
  | false =>
    obtain ⟨rfl, -⟩ := List.cons.inj hraw
    exact takes_map (takes_parseLiteral (ascii "false") rest)
  | number h =>
    obtain ⟨c, ds, rfl, hc⟩ := h.head
    obtain ⟨rfl, rfl⟩ := List.cons.inj hraw
    have htoken : parseToken parseItem b = (do
        let text ← parseNumber
        return .number text) := by
      have hother : ([0x6e, 0x74, 0x66, 0x22, 0x5b, 0x7b] : Text).any
          (fun c => c = 0x2d ∨ isDigit c = true) = false := rfl
      have hnot : ∀ c ∈ ([0x6e, 0x74, 0x66, 0x22, 0x5b, 0x7b] : Text), b ≠ c := by
        rintro c hmem rfl
        exact List.any_eq_false.mp hother b hmem (decide_eq_true hc)
      unfold parseToken
      rw [if_neg (hnot _ (by decide)), if_neg (hnot _ (by decide)), if_neg (hnot _ (by decide)),
        if_neg (hnot _ (by decide)), if_neg (hnot _ (by decide)), if_neg (hnot _ (by decide)), if_pos hc]
    rw [htoken]
    exact takes_map (takes_parseNumber h hrest)
  | string h =>
    obtain ⟨chars, rfl, -⟩ := id h
    obtain ⟨rfl, -⟩ := List.cons.inj hraw
    exact takes_map (takes_parseString h)
  | emptyArray hw =>
    obtain ⟨rfl, -⟩ := List.cons.inj hraw
    exact takes_map (takes_parseArray hw)
  | array h =>
    obtain ⟨rfl, -⟩ := List.cons.inj hraw
    exact takes_map (takes_parseArray_items (hitem _ rfl) h)
  | emptyObject hw =>
    obtain ⟨rfl, -⟩ := List.cons.inj hraw
    exact takes_map (takes_parseObject hw)
  | object h hmap =>
    obtain ⟨rfl, -⟩ := List.cons.inj hraw
    exact takes_map (takes_parseObject_members (hitem _ rfl) h hmap)

theorem takes_parseValue (fuel : Nat) {levels depth : Nat} (hlevels : levels + depth = 128)
    (hfuel : fuel + depth = 130) : TakesElements levels (parseValue fuel depth) := by
  induction fuel generalizing levels depth with
  | zero => omega
  | succ fuel ih =>
    intro raw v rest h hrest
    obtain ⟨hw, h⟩ := h
    obtain ⟨b, t, rfl, hb⟩ := h.head
    refine Takes.failIf (by omega) ?_
    have hstop : Stops isSpace (b :: t ++ rest) :=
      stops_cons (hb.excludes rfl)
    refine (takes_skipWhitespace hw hstop).bind (Takes.read fun position => ?_)
    refine Takes.failIf (List.cons_ne_nil _ _) (Takes.peek ?_)
    exact takes_parseToken (fun l hl => ih (by omega) (by omega)) h hrest

/-! ## a whole text -/

theorem derives_parse (text : Text) :
    Derives (fun raw v => raw = text ∧ IsText text v) parse ⟨0, text⟩ := by
  refine (derives_parseValue 130 rfl (by decide)).bind fun raw v s₁ hs₁ _ hraw => ?_
  obtain ⟨levels, hlevels, h⟩ := hraw
  obtain rfl : levels = 128 := hlevels
  refine derives_skipWhitespace.bind fun w _ s₂ hs₂ _ hw => Derives.read (Derives.failIf fun hnil => ?_)
  rw [not_not] at hnil
  have htext : raw ++ w = text := by
    rw [hnil, List.append_nil] at hs₂
    rw [← hs₂]
    exact hs₁.symm
  refine Derives.pure ?_
  rw [List.append_nil]
  exact ⟨htext, raw, w, htext.symm, h, hw⟩

theorem takes_parse {text : Text} {v : JsonValue} (h : IsText text v) : Takes parse text v [] := by
  obtain ⟨raw, w, rfl, h, hw⟩ := h
  refine (takes_parseValue 130 rfl rfl _ h ?_).bind ?_
  · rw [List.append_nil]
    exact hw.delimited
  · have hstop : Stops isSpace [] := fun b hb => nomatch hb
    refine (takes_skipWhitespace hw hstop).bind_nil (Takes.read fun position => ?_)
    exact Takes.failIf (not_not.mpr rfl) (Takes.pure v [])

/-- The parser returns a value exactly for the texts that denote it, and throws otherwise: it does
not run out of its fuel and does not read past the end. -/
theorem parseJson_iff (text : Text) : (∀ v, parseJson text = .ok v ↔ IsText text v) ∧
    ∀ e, parseJson text = .error e → e.IsThrown := by
  have h := derives_parse text
  unfold Derives wp at h
  refine ⟨fun v => ⟨fun hv => ?_, fun hv => ?_⟩, fun e he => ?_⟩
  · rw [show (parse.exec ⟨0, text⟩).1 = .ok v from hv] at h
    obtain ⟨raw, -, -, -, htext⟩ := h
    exact htext
  · have hparse := takes_parse hv 0
    rw [List.append_nil] at hparse
    unfold parseJson
    rw [hparse]
  · rw [show (parse.exec ⟨0, text⟩).1 = .error e from he] at h
    exact h

end HyperMoE.Metadata
