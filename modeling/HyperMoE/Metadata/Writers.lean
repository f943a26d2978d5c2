import Mathlib.Data.Nat.Digits.Lemmas
import HyperMoE.Metadata.Language

/-!
# Writing what the parser reads

The writers of JSON put texts together by hand.

* `escapeWith`             a string helper treats each byte by itself;
* `scan`                   what a reader sees who only looks for the ends of strings: no text of the
                           language has a control character inside a string;
* `parseJson_quoted_iff`   a helper agrees with the parser exactly on the strings that have no byte
                           which it leaves as a bare control character;
* `decimal`, `array`, `document`   the rest of what the writers print;
* `parseJson_document_iff`         a document is read exactly if its strings are.
-/

namespace HyperMoE.Metadata

open Lib Lib.Fallible Lib.Parsing

/-! ## strings -/

def quoted (chars : Text) : Text := quote :: (chars ++ [quote])

def escapeWith (f : UInt8 → Text) (s : Text) : Text := s.flatMap f

theorem IsChars.append {raw raw' value value' : Text} (h : IsChars raw value)
    (h' : IsChars raw' value') : IsChars (raw ++ raw') (value ++ value') := by
  induction h with
  | nil => exact h'
  | unescaped hb hq hs _ ih => exact .unescaped hb hq hs ih
  | escaped he _ ih =>
    rw [List.append_assoc, List.cons_append, List.append_assoc]
    exact .escaped he ih

theorem isChars_escapeWith {f : UInt8 → Text} {s : Text} (h : ∀ b ∈ s, IsChars (f b) [b]) :
    IsChars (escapeWith f s) s := by
  induction s with
  | nil => exact .nil
  | cons b s ih =>
    have hb := h b List.mem_cons_self
    exact hb.append (ih fun x hx => h x (List.mem_cons_of_mem b hx))

/-! ## the ends of strings -/

inductive Place where
  | outside
  | inside
  | escaped
  deriving DecidableEq, Repr

/-- inside a string a control character is the end of the reading -/
def Place.next : Place → UInt8 → Option Place
  | .outside, b => some (if b = quote then .inside else .outside)
  | .inside, b =>
    if b < 0x20 then none
    else some (if b = quote then .outside else if b = backslash then .escaped else .inside)
  | .escaped, _ => some .inside

def scan : Place → Text → Option Place
  | p, [] => some p
  | p, b :: rest => (p.next b).bind fun p' => scan p' rest

theorem scan_append (p : Place) (raw raw' : Text) :
    scan p (raw ++ raw') = (scan p raw).bind fun p' => scan p' raw' := by
  induction raw generalizing p with
  | nil => rfl
  | cons b raw ih =>
    show (p.next b).bind (fun p' => scan p' (raw ++ raw')) = _
    cases hp : p.next b with
    | none => simp [scan, hp]
    | some p' => simp [scan, hp, ih]

theorem scan_append_of {p p' : Place} {raw raw' : Text} (h : scan p raw = some p') :
    scan p (raw ++ raw') = scan p' raw' := by
  rw [scan_append, h, Option.bind_some]

/-- a text without quotes, outside of strings -/
theorem scan_outside {raw : Text} (h : ∀ b ∈ raw, b ≠ quote) :
    scan .outside raw = some .outside := by
  induction raw with
  | nil => rfl
  | cons b raw ih =>
    have hb : b ≠ quote := h b List.mem_cons_self
    simp [scan, Place.next, hb, ih fun x hx => h x (List.mem_cons_of_mem b hx)]

theorem scan_inside_cons {b : UInt8} (rest : Text) (hb : 0x20 ≤ b) (hq : b ≠ quote)
    (hs : b ≠ backslash) : scan .inside (b :: rest) = scan .inside rest := by
  have hlt : ¬ b < 0x20 := UInt8.not_lt.mpr hb
  simp [scan, Place.next, hlt, hq, hs]

theorem scan_inside {raw : Text} (h : ∀ b ∈ raw, 0x20 ≤ b ∧ b ≠ quote ∧ b ≠ backslash) :
    scan .inside raw = some .inside := by
  induction raw with
  | nil => rfl
  | cons b raw ih =>
    obtain ⟨hb, hq, hs⟩ := h b List.mem_cons_self
    rw [scan_inside_cons raw hb hq hs, ih fun x hx => h x (List.mem_cons_of_mem b hx)]

theorem IsHexDigit.bounds {b : UInt8} {d : Nat} (h : IsHexDigit b d) :
    0x20 ≤ b ∧ b ≠ quote ∧ b ≠ backslash := by
  have h' : 0x30 ≤ b ∧ b ≤ 0x39 ∨ 0x61 ≤ b ∧ b ≤ 0x66 ∨ 0x41 ≤ b ∧ b ≤ 0x46 := by
    cases h with
    | decimal h => exact .inl h
    | lower h => exact .inr (.inl h)
    | upper h => exact .inr (.inr h)
  revert h'
  unfold quote backslash
  simp only [UInt8.le_iff_toNat_le, ne_eq, ← UInt8.toNat_inj, UInt8.reduceToNat]
  omega

theorem IsHexQuad.scan {raw : Text} {u : Nat} (h : IsHexQuad raw u) :
    scan .inside raw = some .inside := by
  obtain ⟨ha, hb, hc, hd⟩ := h
  refine scan_inside fun x hx => ?_
  simp only [List.mem_cons, List.not_mem_nil, or_false] at hx
  rcases hx with rfl | rfl | rfl | rfl
  · exact ha.bounds
  · exact hb.bounds
  · exact hc.bounds
  · exact hd.bounds

theorem IsEscape.scan {escape bytes : Text} (h : IsEscape escape bytes) :
    scan .escaped escape = some .inside := by
  cases h with
  | short hc => rfl
  | unicode hu hns => exact hu.scan
  | pair hu hhigh hu' hlow =>
    show Metadata.scan .inside (_ ++ _) = _
    rw [scan_append_of hu.scan]
    show Metadata.scan .inside _ = _
    exact hu'.scan

theorem IsChars.scan {chars value : Text} (h : IsChars chars value) :
    scan .inside chars = some .inside := by
  induction h with
  | nil => rfl
  | unescaped hb hq hs _ ih => rw [scan_inside_cons _ hb hq hs, ih]
  | escaped he _ ih =>
    show Metadata.scan .escaped (_ ++ _) = _
    rw [scan_append_of he.scan, ih]

theorem scan_quoted (chars : Text) : scan .outside (quoted chars) =
    (scan .inside chars).bind fun p => scan p [quote] := scan_append .inside chars [quote]

theorem IsString.scan {raw value : Text} (h : IsString raw value) :
    scan .outside raw = some .outside := by
  obtain ⟨chars, rfl, hchars⟩ := h
  refine (scan_quoted chars).trans ?_
  rw [hchars.scan]
  rfl

theorem IsWhitespace.scan {w : Text} (h : IsWhitespace w) : scan .outside w = some .outside := by
  refine scan_outside fun b hb => ?_
  rintro rfl
  exact absurd (h quote hb) (by decide)

theorem IsDigits.ne_quote {ds : Text} (h : IsDigits ds) : ∀ b ∈ ds, b ≠ quote := by
  rintro b hb rfl
  exact absurd (h quote hb) (by decide)

/-! ## the ends of strings in values -/

theorem IsNumber.scan {raw : Text} (h : IsNumber raw) : scan .outside raw = some .outside := by
  obtain ⟨hminus, hint, hfrac, hexp⟩ := h
  refine scan_outside fun b hb => ?_
  simp only [List.mem_append] at hb
  rcases hb with hb | hb | hb | hb
  · rcases hminus with rfl | rfl
    · exact absurd hb List.not_mem_nil
    · rw [List.mem_singleton.mp hb]
      decide
  · cases hint with
    | zero =>
      rw [List.mem_singleton.mp hb]
      decide
    | nonzero hd hds =>
      refine IsDigits.ne_quote (fun x hx => ?_) b hb
      rcases List.mem_cons.mp hx with rfl | hx
      · exact ⟨UInt8.le_trans (by decide) hd.1, hd.2⟩
      · exact hds x hx
  · cases hfrac with
    | none => exact absurd hb List.not_mem_nil
    | some hne hds =>
      rcases List.mem_cons.mp hb with rfl | hb
      · decide
      · exact hds.ne_quote b hb
  · cases hexp with
    | none => exact absurd hb List.not_mem_nil
    | some he hsign hne hds =>
      simp only [List.mem_cons, List.mem_append] at hb
      rcases hb with rfl | hb | hb
      · rcases he with rfl | rfl <;> decide
      · rcases hsign with rfl | rfl | rfl
        · exact absurd hb List.not_mem_nil
        · rw [List.mem_singleton.mp hb]
          decide
        · rw [List.mem_singleton.mp hb]
          decide
      · exact hds.ne_quote b hb

/-- the text begins and ends outside of strings -/
def Closed (raw : Text) : Prop := scan .outside raw = some .outside

instance (raw : Text) : Decidable (Closed raw) := inferInstanceAs (Decidable (_ = _))

instance (w : Text) : Decidable (IsWhitespace w) := List.decidableBAll _ _

theorem Closed.append {raw raw' : Text} (h : Closed raw) (h' : Closed raw') :
    Closed (raw ++ raw') := (scan_append_of h).trans h'

/-- one byte that is no quote -/
theorem closed_byte {b : UInt8} (h : b ≠ quote) : Closed [b] :=
  scan_outside fun x hx => by rwa [List.mem_singleton.mp hx]

/-- the values inside of an array or an object are closed -/
def ClosedAt (levels : Nat) : Prop := ∀ raw v, IsValue levels raw v → Closed raw

section
variable {levels : Nat}

theorem ClosedAt.element (hvalue : ClosedAt levels) {raw : Text} {v : JsonValue}
    (h : IsElement levels raw v) : Closed raw := by
  cases h with
  | mk hw h => exact Closed.append hw.scan (hvalue _ v h)

theorem ClosedAt.items (hvalue : ClosedAt levels) {raw : Text} {items : List JsonValue}
    (h : IsItems levels raw items) : Closed raw := by
  induction items generalizing raw with
  | nil => exact nomatch h
  | cons v items ih =>
    cases h with
    | one h hw => exact (hvalue.element h).append hw.scan
    | more h hw hs =>
      have hcomma : Closed [0x2c] := closed_byte (by decide)
      exact (hvalue.element h).append (Closed.append hw.scan (hcomma.append (ih hs)))

theorem ClosedAt.member (hvalue : ClosedAt levels) {raw : Text} {m : Text × JsonValue}
    (h : IsMember levels raw m) : Closed raw := by
  cases h with
  | mk hw hname hw' h =>
    have hcolon : Closed [0x3a] := closed_byte (by decide)
    have hrest := Closed.append hw'.scan (hcolon.append (hvalue.element h))
    exact Closed.append hw.scan (Closed.append hname.scan hrest)

theorem ClosedAt.members (hvalue : ClosedAt levels) {raw : Text}
    {members : List (Text × JsonValue)} (h : IsMembers levels raw members) : Closed raw := by
  induction members generalizing raw with
  | nil => exact nomatch h
  | cons m members ih =>
    cases h with
    | one h hw => exact (hvalue.member h).append hw.scan
    | more h hw hs =>
      have hcomma : Closed [0x2c] := closed_byte (by decide)
      exact (hvalue.member h).append (Closed.append hw.scan (hcomma.append (ih hs)))

end

/-- between two brackets -/
theorem Closed.enclosed {raw : Text} {b b' : UInt8} (h : Closed raw) (hb : b ≠ quote)
    (hb' : b' ≠ quote) : Closed (b :: (raw ++ [b'])) :=
  (closed_byte hb).append (h.append (closed_byte hb'))

theorem closedAt (levels : Nat) : ClosedAt levels := by
  induction levels with
  | zero =>
    intro raw v h
    cases h with
    | null => rfl
    | true => rfl
    | false => rfl
    | number h => exact h.scan
    | string h => exact h.scan
    | emptyArray hw => exact Closed.enclosed hw.scan (by decide) (by decide)
    | emptyObject hw => exact Closed.enclosed hw.scan (by decide) (by decide)
  | succ levels ih =>
    intro raw v h
    cases h with
    | null => rfl
    | true => rfl
    | false => rfl
    | number h => exact h.scan
    | string h => exact h.scan
    | emptyArray hw => exact Closed.enclosed hw.scan (by decide) (by decide)
    | emptyObject hw => exact Closed.enclosed hw.scan (by decide) (by decide)
    | array h => exact (ih.items h).enclosed (by decide) (by decide)
    | object h hmap => exact (ih.members h).enclosed (by decide) (by decide)

/-- no text of the language has a control character inside a string -/
theorem closed_of_isText {text : Text} {v : JsonValue} (h : IsText text v) :
    Closed text := by
  obtain ⟨raw, w, rfl, h, hw⟩ := h
  exact ((closedAt 128).element h).append hw.scan

theorem parseJson_ok_iff {text : Text} {v : JsonValue} : parseJson text = .ok v ↔ IsText text v :=
  (parseJson_iff text).1 v

/-! ## helpers for strings -/

/-- the byte is written as itself although it is a control character -/
def Bare (f : UInt8 → Text) (b : UInt8) : Prop := b < 0x20 ∧ f b = [b]

/-- every byte is written as the parser reads it, or bare -/
def Escapes (f : UInt8 → Text) : Prop := ∀ b, IsChars (f b) [b] ∨ Bare f b

section
variable {f : UInt8 → Text} {s : Text}

theorem not_bare_of_isChars {b : UInt8} (h : IsChars (f b) [b]) : ¬ Bare f b := by
  rintro ⟨hb, hf⟩
  have hscan := h.scan
  rw [hf] at hscan
  simp [scan, Place.next, hb] at hscan

theorem Escapes.isChars (h : Escapes f) (hs : ∀ b ∈ s, ¬ Bare f b) : IsChars (escapeWith f s) s :=
  isChars_escapeWith fun b hb => (h b).resolve_right (hs b hb)

theorem Escapes.scan_bare (h : Escapes f) {b : UInt8} (hb : b ∈ s) (hbare : Bare f b) :
    scan .inside (escapeWith f s) = none := by
  induction s with
  | nil => exact absurd hb List.not_mem_nil
  | cons a s ih =>
    show scan .inside (f a ++ escapeWith f s) = none
    rcases h a with ha | ⟨hlt, hf⟩
    · have hs : b ∈ s := by
        rcases List.mem_cons.mp hb with rfl | hb
        · exact absurd hbare (not_bare_of_isChars ha)
        · exact hb
      rw [scan_append_of ha.scan, ih hs]
    · rw [hf]
      simp [scan, Place.next, hlt]

theorem Escapes.scan_quoted_bare (h : Escapes f) {b : UInt8} (hb : b ∈ s) (hbare : Bare f b) :
    scan .outside (quoted (escapeWith f s)) = none := by
  rw [scan_quoted, h.scan_bare hb hbare]
  rfl

theorem Escapes.isString (h : Escapes f) (hs : ∀ b ∈ s, ¬ Bare f b) :
    IsString (quoted (escapeWith f s)) s := ⟨_, rfl, h.isChars hs⟩

/-- a helper agrees with the parser on the strings without a byte that it leaves bare -/
theorem parseJson_quoted_iff (h : Escapes f) :
    parseJson (quoted (escapeWith f s)) = .ok (.string s) ↔ ∀ b ∈ s, ¬ Bare f b := by
  rw [parseJson_ok_iff]
  constructor
  · intro htext b hb hbare
    have hclosed : scan .outside (quoted (escapeWith f s)) = _ := closed_of_isText htext
    rw [h.scan_quoted_bare hb hbare] at hclosed
    exact nomatch hclosed
  · intro hs
    have hvalue : IsElement 128 ([] ++ quoted (escapeWith f s)) (.string s) :=
      .mk IsWhitespace.nil (.string (h.isString hs))
    exact ⟨_, [], (List.append_nil _).symm, hvalue, IsWhitespace.nil⟩

end

/-! ## numbers and arrays -/

/-- `output << n` of an unsigned integer -/
def decimal (n : Nat) : Text :=
  if n = 0 then [0x30] else (Nat.digits 10 n).reverse.map fun d => 0x30 + UInt8.ofNat d

theorem digit_bounds {d : Nat} (h : d < 10) :
    0x30 ≤ 0x30 + UInt8.ofNat d ∧ 0x30 + UInt8.ofNat d ≤ 0x39 := by
  revert d
  decide

theorem isNumber_decimal (n : Nat) : IsNumber (decimal n) := by
  have hint : IsInteger (decimal n) := by
    unfold decimal
    split
    · exact .zero
    · next hn =>
      have hne : Nat.digits 10 n ≠ [] := Nat.digits_ne_nil_iff_ne_zero.mpr hn
      have hlast := Nat.getLast_digit_ne_zero 10 hn
      have hlt : ∀ d ∈ Nat.digits 10 n, d < 10 := fun d => Nat.digits_lt_base (by norm_num)
      rw [← List.dropLast_append_getLast hne, List.reverse_append, List.reverse_singleton,
        List.singleton_append, List.map_cons]
      refine .nonzero ?_ fun b hb => ?_
      · have hd := hlt _ (List.getLast_mem hne)
        generalize (Nat.digits 10 n).getLast hne = d at hlast hd
        revert hlast
        revert d
        decide
      · obtain ⟨d, hd, rfl⟩ := List.mem_map.mp hb
        exact digit_bounds (hlt d (List.mem_of_mem_dropLast (List.mem_reverse.mp hd)))
  have hnumber := IsNumber.mk (.inl rfl) hint .none .none
  rwa [List.nil_append, List.append_nil, List.append_nil] at hnumber

/-- texts with commas between them -/
def separated : List Text → Text
  | [] => []
  | [raw] => raw
  | raw :: next :: rest => raw ++ 0x2c :: separated (next :: rest)

def array (items : List Text) : Text := 0x5b :: (separated items ++ [0x5d])

theorem isItems_separated {levels : Nat} {raws : List Text} (hne : raws ≠ [])
    (h : ∀ raw ∈ raws, ∃ v, IsValue levels raw v) : ∃ items, IsItems levels (separated raws) items := by
  induction raws with
  | nil => exact absurd rfl hne
  | cons raw raws ih =>
    obtain ⟨v, hv⟩ := h raw List.mem_cons_self
    have helement : IsElement levels raw v := .mk IsWhitespace.nil hv
    cases raws with
    | nil =>
      have hone := IsItems.one helement IsWhitespace.nil
      rw [List.append_nil] at hone
      exact ⟨[v], hone⟩
    | cons next raws =>
      obtain ⟨items, hitems⟩ := ih (List.cons_ne_nil _ _) fun x hx => h x (List.mem_cons_of_mem raw hx)
      exact ⟨v :: items, .more helement IsWhitespace.nil hitems⟩

theorem isValue_array {levels : Nat} {raws : List Text} (h : ∀ raw ∈ raws, ∃ v, IsValue levels raw v) :
    ∃ v, IsValue (levels + 1) (array raws) v := by
  by_cases hne : raws = []
  · subst hne
    exact ⟨_, .emptyArray IsWhitespace.nil⟩
  · obtain ⟨items, hitems⟩ := isItems_separated hne h
    exact ⟨_, .array hitems⟩

/-! ## documents -/

/-- one line of a document -/
def field (f : String × Text) : Text := ascii "\n  " ++ (quoted (ascii f.1) ++ (ascii ": " ++ f.2))

def object (fields : List (String × Text)) : Text :=
  0x7b :: ((separated (fields.map field) ++ ascii "\n") ++ [0x7d])

def document (fields : List (String × Text)) : Text := object fields ++ ascii "\n"

/-- a name that is written as it is -/
def Plain (name : String) : Prop := ∀ b ∈ ascii name, 0x20 ≤ b ∧ b ≠ quote ∧ b ≠ backslash

instance (name : String) : Decidable (Plain name) := List.decidableBAll _ _

theorem isChars_plain {raw : Text} (h : ∀ b ∈ raw, 0x20 ≤ b ∧ b ≠ quote ∧ b ≠ backslash) :
    IsChars raw raw := by
  induction raw with
  | nil => exact .nil
  | cons b raw ih =>
    obtain ⟨hb, hq, hs⟩ := h b List.mem_cons_self
    exact .unescaped hb hq hs (ih fun x hx => h x (List.mem_cons_of_mem b hx))

theorem Plain.isString {name : String} (h : Plain name) : IsString (quoted (ascii name)) (ascii name) :=
  ⟨_, rfl, isChars_plain h⟩

theorem isMember_field {levels : Nat} {name : String} {raw : Text} {v : JsonValue} (hn : Plain name)
    (h : IsValue levels raw v) : IsMember levels (field (name, raw)) (ascii name, v) := by
  have hline : IsWhitespace (ascii "\n  ") := by decide +kernel
  have hblank : IsWhitespace [0x20] := by decide +kernel
  exact .mk hline hn.isString IsWhitespace.nil (.mk hblank h)

theorem isMembers_fields {levels : Nat} {fields : List (String × Text)} {w : Text} (hne : fields ≠ [])
    (hw : IsWhitespace w) (h : ∀ f ∈ fields, Plain f.1 ∧ ∃ v, IsValue levels f.2 v) :
    ∃ members, IsMembers levels (separated (fields.map field) ++ w) members ∧
      members.map Prod.fst = fields.map fun f => ascii f.1 := by
  induction fields with
  | nil => exact absurd rfl hne
  | cons f fields ih =>
    obtain ⟨hn, v, hv⟩ := h f List.mem_cons_self
    have hmember := isMember_field hn hv
    cases fields with
    | nil => exact ⟨[_], .one hmember hw, rfl⟩
    | cons next fields =>
      obtain ⟨members, hmembers, hkeys⟩ := ih (List.cons_ne_nil _ _) fun x hx =>
        h x (List.mem_cons_of_mem f hx)
      refine ⟨(ascii f.1, v) :: members, ?_, congrArg (ascii f.1 :: ·) hkeys⟩
      have hmore := IsMembers.more hmember IsWhitespace.nil hmembers
      show IsMembers levels ((field f ++ 0x2c :: separated (List.map field (next :: fields))) ++ w) _
      rwa [List.append_assoc]

theorem exists_isMap {members : List (Text × JsonValue)} (h : (members.map Prod.fst).Nodup) :
    ∃ entries, IsMap members entries := by
  induction members with
  | nil => exact ⟨[], List.Pairwise.nil, .refl _⟩
  | cons m members ih =>
    rw [List.map_cons, List.nodup_cons] at h
    obtain ⟨entries, hentries⟩ := ih h.2
    have hnew : ∀ e ∈ entries, e.1 ≠ m.1 := by
      rintro e he heq
      exact h.1 (List.mem_map.mpr ⟨e, hentries.2.mem_iff.mp he, heq⟩)
    obtain ⟨entries', hemplace⟩ := emplace_isSome m.2 hnew
    refine ⟨entries', emplace_sorted hentries.1 hemplace, ?_⟩
    exact (emplace_mem hemplace).trans (hentries.2.cons m)

/-- the names of a document are written as they are, no two of them the same -/
def Named (names : List String) : Prop :=
  names ≠ [] ∧ (∀ name ∈ names, Plain name) ∧ (names.map ascii).Nodup

instance (names : List String) : Decidable (Named names) := by
  unfold Named
  infer_instance

/-- a value, or a text with a control character inside a string -/
def Readable (levels : Nat) (raw : Text) : Prop :=
  (∃ v, IsValue levels raw v) ∨ scan .outside raw = none

theorem Readable.isValue {levels : Nat} {raw : Text} (h : Readable levels raw)
    (hs : scan .outside raw ≠ none) : ∃ v, IsValue levels raw v := h.resolve_right hs

theorem readable_of_isValue {levels : Nat} {raw : Text} {v : JsonValue} (h : IsValue levels raw v) :
    Readable levels raw ∧ scan .outside raw ≠ none := by
  have hclosed : scan .outside raw = some .outside := closedAt levels raw v h
  exact ⟨.inl ⟨v, h⟩, by rw [hclosed]; nofun⟩

theorem Escapes.readable {f : UInt8 → Text} (h : Escapes f) (levels : Nat) (s : Text) :
    Readable levels (quoted (escapeWith f s)) ∧
      (scan .outside (quoted (escapeWith f s)) ≠ none ↔ ∀ b ∈ s, ¬ Bare f b) := by
  by_cases hs : ∀ b ∈ s, ¬ Bare f b
  · have hvalue : IsValue levels _ _ := .string (h.isString hs)
    obtain ⟨hread, hscan⟩ := readable_of_isValue hvalue
    exact ⟨hread, iff_of_true hscan hs⟩
  · have hbare : ∃ b ∈ s, Bare f b := by simpa using hs
    obtain ⟨b, hb, hbare⟩ := hbare
    have hscan := h.scan_quoted_bare hb hbare
    exact ⟨.inr hscan, iff_of_false (not_not.mpr hscan) hs⟩

section
variable {levels : Nat} {fields : List (String × Text)}

theorem isValue_object (hn : Named (fields.map Prod.fst)) (h : ∀ f ∈ fields, ∃ v, IsValue levels f.2 v) :
    ∃ v, IsValue (levels + 1) (object fields) v := by
  have hne : fields ≠ [] := fun hnil => hn.1 (congrArg (List.map Prod.fst) hnil)
  have hnodup : (fields.map fun f => ascii f.1).Nodup := by
    have hnames := hn.2.2
    rwa [List.map_map] at hnames
  obtain ⟨members, hmembers, hkeys⟩ := isMembers_fields (w := ascii "\n") hne (by decide +kernel)
    fun f hf => ⟨hn.2.1 f.1 (List.mem_map_of_mem hf), h f hf⟩
  obtain ⟨entries, hmap⟩ := exists_isMap (hkeys ▸ hnodup)
  exact ⟨_, .object hmembers hmap⟩

theorem scan_field (f : String × Text) (hn : Plain f.1) :
    scan .outside (field f) = scan .outside f.2 := by
  have hline : Closed (ascii "\n  ") := by decide
  have hcolon : Closed (ascii ": ") := by decide
  unfold field
  rw [scan_append_of hline, scan_append_of hn.isString.scan, scan_append_of hcolon]

/-- a control character inside a string of one field -/
theorem scan_fields_bare (hn : ∀ f ∈ fields, Plain f.1) (h : ∀ f ∈ fields, Readable levels f.2)
    {f : String × Text} (hf : f ∈ fields) (hbare : scan .outside f.2 = none) :
    scan .outside (separated (fields.map field)) = none := by
  induction fields with
  | nil => exact absurd hf List.not_mem_nil
  | cons a fields ih =>
    have ha := scan_field a (hn a List.mem_cons_self)
    cases fields with
    | nil =>
      obtain rfl := List.mem_singleton.mp hf
      exact ha.trans hbare
    | cons next fields =>
      show scan .outside (field a ++ 0x2c :: separated (List.map field (next :: fields))) = none
      rw [scan_append, ha]
      rcases h a List.mem_cons_self with ⟨v, hv⟩ | hnone
      · have hclosed : scan .outside a.2 = some .outside := closedAt levels a.2 v hv
        have hf' : f ∈ next :: fields := by
          rcases List.mem_cons.mp hf with rfl | hf
          · exact absurd (hclosed.symm.trans hbare) nofun
          · exact hf
        rw [hclosed]
        exact ih (fun x hx => hn x (List.mem_cons_of_mem a hx))
          (fun x hx => h x (List.mem_cons_of_mem a hx)) hf'
      · rw [hnone]
        rfl

theorem readable_object (hn : Named (fields.map Prod.fst)) (h : ∀ f ∈ fields, Readable levels f.2) :
    Readable (levels + 1) (object fields) ∧
      (scan .outside (object fields) ≠ none ↔ ∀ f ∈ fields, scan .outside f.2 ≠ none) := by
  by_cases hs : ∀ f ∈ fields, scan .outside f.2 ≠ none
  · obtain ⟨v, hv⟩ := isValue_object hn fun f hf => (h f hf).isValue (hs f hf)
    obtain ⟨hread, hscan⟩ := readable_of_isValue hv
    exact ⟨hread, iff_of_true hscan hs⟩
  · have hbare : ∃ f ∈ fields, scan .outside f.2 = none := by simpa using hs
    obtain ⟨f, hf, hbare⟩ := hbare
    have hscan : scan .outside (object fields) = none := by
      show scan .outside ((separated (fields.map field) ++ ascii "\n") ++ [0x7d]) = none
      have hplain : ∀ f ∈ fields, Plain f.1 := fun f hf => hn.2.1 f.1 (List.mem_map_of_mem hf)
      rw [List.append_assoc, scan_append, scan_fields_bare hplain h hf hbare]
      rfl
    exact ⟨.inr hscan, iff_of_false (not_not.mpr hscan) hs⟩

/-- a document is read exactly if none of its strings has a control character -/
theorem parseJson_document_iff (hn : Named (fields.map Prod.fst))
    (h : ∀ f ∈ fields, Readable 127 f.2) :
    (∃ v, parseJson (document fields) = .ok v) ↔ ∀ f ∈ fields, scan .outside f.2 ≠ none := by
  obtain ⟨hread, hscan⟩ := readable_object hn h
  rw [← hscan]
  constructor
  · rintro ⟨v, hv⟩ hnone
    have hclosed : scan .outside (document fields) = _ := closed_of_isText (parseJson_ok_iff.mp hv)
    unfold document at hclosed
    rw [scan_append, hnone] at hclosed
    exact nomatch hclosed
  · intro hs
    obtain ⟨v, hv⟩ := hread.isValue hs
    have helement : IsElement 128 ([] ++ object fields) v := .mk IsWhitespace.nil hv
    exact ⟨v, parseJson_ok_iff.mpr ⟨_, ascii "\n", rfl, helement, by decide +kernel⟩⟩

end

end HyperMoE.Metadata
