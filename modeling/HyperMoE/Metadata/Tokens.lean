import HyperMoE.Metadata.Grammar

/-!
# The tokens of the parser

What each function below `parseValue` takes (`Derives`), and that it takes every text of the
grammar that ends where the token does (`Takes`).

* `derives_consume`, `takes_consume`   one expected byte after white space;
* `appendUtf8_eq`                      the encoder is UTF-8;
* `derives_parseString`, `takes_parseString`;
* `derives_parseNumber`, `takes_parseNumber`.
-/

namespace HyperMoE.Metadata

open Lib Lib.Fallible Lib.Parsing

variable {α β : Type} {s : Input}

/-! ## guards -/

theorem derives_fail {G : Text → α → Prop} (message : String) : Derives G (fail message : Code α) s :=
  trivial

theorem derives_failIf (c : Prop) [Decidable c] (message : String) :
    Derives (fun raw _ => raw = [] ∧ ¬ c) (failIf c message) s :=
  Derives.ite (fun _ => derives_fail message) fun h => Derives.pure ⟨rfl, h⟩

theorem takes_failIf {c : Prop} [Decidable c] {message : String} {rest : Text} (hc : ¬ c) :
    Takes (failIf c message) [] () rest := Takes.ite (fun h => absurd h hc) fun _ => Takes.pure () rest

theorem Derives.failIf {H : Text → β → Prop} {c : Prop} [Decidable c] {message : String}
    {f : Unit → Code β} (h : ¬ c → Derives H (f ()) s) :
    Derives H (failIf c message >>= f) s := by
  unfold Metadata.failIf
  split
  · exact derives_fail message
  · next hc => exact h hc

theorem Takes.failIf {c : Prop} [Decidable c] {message : String} {f : Unit → Code β}
    {raw rest : Text} {b : β} (hc : ¬ c) (h : Takes (f ()) raw b rest) :
    Takes (failIf c message >>= f) raw b rest := by
  unfold Metadata.failIf
  rw [if_neg hc]
  exact h

/-! ## white space -/

theorem isSpace_iff (b : UInt8) :
    isSpace b = true ↔ b ∈ ([0x20, 0x09, 0x0a, 0x0b, 0x0c, 0x0d] : Text) := by
  have h : ∀ n : Fin 256, isSpace (UInt8.ofNat n) = true ↔
      UInt8.ofNat n ∈ ([0x20, 0x09, 0x0a, 0x0b, 0x0c, 0x0d] : Text) := by decide +kernel
  have hb := h ⟨b.toNat, b.toNat_lt⟩
  rwa [UInt8.ofNat_toNat] at hb

theorem IsWhitespace.nil : IsWhitespace [] := fun _ hb => absurd hb List.not_mem_nil

theorem IsWhitespace.append {w w' : Text} (h : IsWhitespace w) (h' : IsWhitespace w') :
    IsWhitespace (w ++ w') := fun b hb => (List.mem_append.mp hb).elim (h b) (h' b)

theorem IsWhitespace.isSpace {w : Text} (h : IsWhitespace w) : ∀ b ∈ w, isSpace b = true :=
  fun b hb => (isSpace_iff b).mpr (h b hb)

/-- a text that begins with another byte has no white space in front -/
theorem IsWhitespace.eq_nil {w raw rest : Text} {b : UInt8} (hw : IsWhitespace w)
    (h : b :: rest = w ++ raw) (hb : Metadata.isSpace b = false) : w = [] := by
  cases w with
  | nil => rfl
  | cons c w =>
    obtain ⟨rfl, -⟩ := List.cons.inj h
    have hc := hw.isSpace b List.mem_cons_self
    rw [hb] at hc
    exact absurd hc Bool.false_ne_true

theorem derives_skipWhitespace : Derives (fun raw _ => IsWhitespace raw) skipWhitespace s :=
  (derives_skipWhile isSpace).mono fun _ _ _ _ h b hb => (isSpace_iff b).mp (h b hb)

theorem takes_skipWhitespace {w rest : Text} (hw : IsWhitespace w) (hrest : Stops isSpace rest) :
    Takes skipWhitespace w () rest := takes_skipWhile hw.isSpace hrest

theorem derives_consume (expected : UInt8) :
    Derives (fun raw found => if found = true then ∃ w, IsWhitespace w ∧ raw = w ++ [expected]
      else IsWhitespace raw) (consume expected) s := by
  refine derives_skipWhitespace.bind fun w _ s' _ _ hw => Derives.read (Derives.ite (fun h => ?_) fun _ => ?_)
  · obtain ⟨rest, hrest⟩ := List.head?_eq_some_iff.mp h
    refine (derives_advance hrest).bind fun raw _ s'' _ _ hraw => Derives.pure ?_
    exact ⟨w, hw, by rw [hraw, List.append_nil]⟩
  · exact Derives.pure (by rw [List.append_nil]; exact hw)

theorem takes_consume {w rest : Text} {expected : UInt8} (hw : IsWhitespace w)
    (hs : isSpace expected = false) : Takes (consume expected) (w ++ [expected]) true rest := by
  have hstop : Stops isSpace ([expected] ++ rest) := by
    rintro b hb
    rw [← Option.some.inj hb]
    exact hs
  refine (takes_skipWhitespace hw hstop).bind (Takes.read fun position => ?_)
  refine Takes.ite (fun _ => ?_) fun h => absurd rfl h
  exact (takes_advance expected rest).bind_nil (Takes.pure true rest)

theorem takes_consume_of_ne {w rest : Text} {expected : UInt8} (hw : IsWhitespace w)
    (hrest : Stops isSpace rest) (hne : rest.head? ≠ some expected) :
    Takes (consume expected) w false rest := by
  refine (takes_skipWhitespace hw hrest).bind_nil (Takes.read fun position => ?_)
  exact Takes.ite (fun h => absurd h hne) fun _ => Takes.pure false rest

/-- an expected byte without white space before it -/
theorem takes_expected {expected : UInt8} {message : String} {x : Code β} {raw rest : Text} {v : β}
    (hs : isSpace expected = false) (h : Takes x raw v rest) :
    Takes (do
      let found ← consume expected
      failIf (found = false) message
      x) (expected :: raw) v rest :=
  have hconsume : Takes (consume expected) [expected] true (raw ++ rest) := takes_consume IsWhitespace.nil hs
  hconsume.bind (Takes.failIf Bool.noConfusion h)

theorem derives_parseLiteral (literal : Text) :
    Derives (fun raw _ => raw = literal) (parseLiteral literal) s := by
  refine Derives.read (Derives.failIf fun h => ?_)
  exact derives_drop (not_not.mp h) rfl

theorem takes_parseLiteral (literal rest : Text) :
    Takes (parseLiteral literal) literal () rest := by
  refine Takes.read fun position => Takes.failIf ?_ (takes_drop literal rest)
  exact not_not.mpr (List.take_left ..)

/-! ## code points -/

theorem hexDigit_lt {b : UInt8} {d : Nat} (h : hexDigit b = some d) : d < 16 := by
  unfold hexDigit at h
  simp only [UInt8.le_iff_toNat_le] at h
  have h9 : (0x39 : UInt8).toNat = 57 := rfl
  have hf : (0x66 : UInt8).toNat = 102 := rfl
  have hF : (0x46 : UInt8).toNat = 70 := rfl
  grind

theorem hexDigit_iff (b : UInt8) (d : Nat) : hexDigit b = some d ↔ IsHexDigit b d := by
  constructor
  · intro h
    unfold hexDigit at h
    split at h
    · next hb => exact Option.some.inj h ▸ .decimal hb
    split at h
    · next hb => exact Option.some.inj h ▸ .lower hb
    split at h
    · next hb => exact Option.some.inj h ▸ .upper hb
    · exact nomatch h
  · intro h
    have h9 : (0x39 : UInt8).toNat = 57 := rfl
    have ha : (0x61 : UInt8).toNat = 97 := rfl
    have hf : (0x66 : UInt8).toNat = 102 := rfl
    have hA : (0x41 : UInt8).toNat = 65 := rfl
    have hF : (0x46 : UInt8).toNat = 70 := rfl
    unfold hexDigit
    cases h with
    | decimal hb => rw [if_pos hb]
    | lower hb =>
      simp only [UInt8.le_iff_toNat_le] at hb ⊢
      rw [if_neg (by omega), if_pos hb]
    | upper hb =>
      simp only [UInt8.le_iff_toNat_le] at hb ⊢
      rw [if_neg (by omega), if_neg (by omega), if_pos hb]

theorem IsHexDigit.lt {b : UInt8} {d : Nat} (h : IsHexDigit b d) : d < 16 :=
  hexDigit_lt ((hexDigit_iff b d).mpr h)

theorem shift_digit {value d : Nat} (hd : d < 16) : value <<< 4 ||| d = value * 16 + d := by
  rw [← Nat.shiftLeft_add_eq_or_of_lt hd, Nat.shiftLeft_eq]

theorem derives_hexLoop (count value : Nat) (hs : count ≤ s.rest.length) :
    Derives (fun raw n => raw.length = count ∧ ∃ ds, raw.mapM hexDigit = some ds ∧
      n = ds.foldl (fun v d => v * 16 + d) value) (hexLoop count value) s := by
  induction count generalizing value s with
  | zero => exact Derives.pure ⟨rfl, [], rfl, rfl⟩
  | succ count ih =>
    have hne : s.rest ≠ [] := List.ne_nil_of_length_pos (Nat.lt_of_lt_of_le (Nat.succ_pos _) hs)
    refine (derives_next hne).bind fun raw b s' hrest _ hraw => ?_
    subst hraw
    cases hd : hexDigit b with
    | none => exact derives_fail _
    | some d =>
      have hs' : count ≤ s'.rest.length := by
        have hlen := congrArg List.length hrest
        simp only [List.length_append, List.length_singleton] at hlen
        omega
      show Derives _ (hexLoop count (value <<< 4 ||| d)) s'
      refine (ih (value <<< 4 ||| d) hs').mono fun raw n _ _ h => ?_
      obtain ⟨hlen, ds, hds, hn⟩ := h
      refine ⟨by rw [List.length_append, hlen]; exact Nat.add_comm 1 count, d :: ds, ?_, ?_⟩
      · show ([b] ++ raw).mapM hexDigit = _
        rw [List.singleton_append, List.mapM_cons, hd, hds]
        rfl
      · rw [hn, shift_digit (hexDigit_lt hd)]
        rfl

theorem derives_parseHexQuad : Derives IsHexQuad parseHexQuad s := by
  refine Derives.read (Derives.failIf fun h => ?_)
  refine (derives_hexLoop 4 0 (Nat.le_of_not_lt h)).mono fun raw n _ _ hraw => ?_
  obtain ⟨hlen, ds, hds, hn⟩ := hraw
  match raw, hlen with
  | [a, b, c, d], _ =>
    simp only [List.mapM_cons, List.mapM_nil, Option.bind_eq_bind, Option.pure_def,
      Option.bind_eq_some_iff, Option.some.injEq] at hds
    obtain ⟨a', ha, _, ⟨b', hb, _, ⟨c', hc, _, ⟨d', hd, _, rfl, rfl⟩, rfl⟩, rfl⟩, rfl⟩ := hds
    have hn' : n = a' * 16 ^ 3 + b' * 16 ^ 2 + c' * 16 + d' := by
      rw [hn]
      simp only [List.foldl_cons, List.foldl_nil]
      omega
    rw [hn']
    simp only [hexDigit_iff] at ha hb hc hd
    exact .mk ha hb hc hd

theorem takes_hexLoop {b : UInt8} {d count value : Nat} {raw rest : Text} {n : Nat}
    (hd : hexDigit b = some d) (h : Takes (hexLoop count (value * 16 + d)) raw n rest) :
    Takes (hexLoop (count + 1) value) (b :: raw) n rest := by
  refine (takes_next b (raw ++ rest)).bind (a := b) ?_
  rw [hd]
  show Takes (hexLoop count (value <<< 4 ||| d)) raw n rest
  rw [shift_digit (hexDigit_lt hd)]
  exact h

theorem takes_parseHexQuad {raw rest : Text} {u : Nat} (h : IsHexQuad raw u) :
    Takes parseHexQuad raw u rest := by
  cases h with
  | @mk a b c d a' b' c' d' ha hb hc hd =>
    refine Takes.read fun position => Takes.failIf (by simp) ?_
    simp only [← hexDigit_iff] at ha hb hc hd
    refine takes_hexLoop ha (takes_hexLoop hb (takes_hexLoop hc (takes_hexLoop hd ?_)))
    have hvalue : (((0 * 16 + a') * 16 + b') * 16 + c') * 16 + d' =
        a' * 16 ^ 3 + b' * 16 ^ 2 + c' * 16 + d' := by omega
    rw [hvalue]
    exact Takes.pure _ rest

/-- a field of `i` bits below a constant -/
theorem or_field {n : Nat} (i k : Nat) (hn : n < 2 ^ i) : 2 ^ i * k ||| n = n + 2 ^ i * k := by
  rw [← Nat.two_pow_add_eq_or_of_lt hn, Nat.add_comm]

theorem continuation (n : Nat) : 0x80 ||| n &&& 0x3f = n % 0x40 + 0x80 := by
  have hmask : n &&& 0x3f = n % 0x40 := Nat.and_two_pow_sub_one_eq_mod n 6
  rw [hmask]
  exact or_field 7 1 (by omega)

theorem appendUtf8_eq {u : Nat} (hu : u < 0x110000) (hns : ¬ (0xd800 ≤ u ∧ u ≤ 0xdfff)) :
    appendUtf8 u = utf8 u := by
  have hvalid : u.isValidChar := by
    unfold Nat.isValidChar
    omega
  have hval : (Char.ofNat u).val.toNat = u := by
    unfold Char.ofNat
    rw [dif_pos hvalid]
    rfl
  unfold appendUtf8 utf8 String.utf8EncodeChar
  simp only [hval, continuation, Nat.shiftRight_eq_div_pow]
  split
  · rfl
  split
  · next h =>
    have hlead : 0xc0 ||| u / 2 ^ 6 = u / 64 % 0x20 + 0xc0 := by
      rw [Nat.mod_eq_of_lt (by omega : u / 64 < 0x20)]
      exact or_field 6 3 (by omega)
    rw [hlead]
  split
  · next h =>
    have hlead : 0xe0 ||| u / 2 ^ 12 = u / 4096 % 0x10 + 0xe0 := by
      rw [Nat.mod_eq_of_lt (by omega : u / 4096 < 0x10)]
      exact or_field 5 7 (by omega)
    rw [hlead]
  · have hlead : 0xf0 ||| u / 2 ^ 18 = u / 262144 % 0x08 + 0xf0 := by
      rw [Nat.mod_eq_of_lt (by omega : u / 262144 < 0x08)]
      exact or_field 4 15 (by omega)
    rw [hlead]

/-! ## strings -/

theorem IsHexQuad.lt {raw : Text} {u : Nat} (h : IsHexQuad raw u) : u < 0x10000 := by
  cases h with
  | mk ha hb hc hd =>
    have ha := ha.lt
    have hb := hb.lt
    have hc := hc.lt
    have hd := hd.lt
    omega

theorem isHighSurrogate_iff (u : Nat) : isHighSurrogate u = true ↔ 0xd800 ≤ u ∧ u ≤ 0xdbff :=
  decide_eq_true_iff

theorem isLowSurrogate_iff (u : Nat) : isLowSurrogate u = true ↔ 0xdc00 ≤ u ∧ u ≤ 0xdfff :=
  decide_eq_true_iff

theorem pair_eq (u u' : Nat) : 0x10000 + (u - 0xd800) <<< 10 + (u' - 0xdc00) =
    0x10000 + (u - 0xd800) * 0x400 + (u' - 0xdc00) := by
  rw [Nat.shiftLeft_eq]

theorem shortEscape_iff (c b : UInt8) : shortEscape c = some b ↔ IsShort c b := by
  constructor
  · intro h
    unfold shortEscape at h
    split at h
    · next hc => exact hc ▸ Option.some.inj h ▸ .quotationMark
    split at h
    · next hc => exact hc ▸ Option.some.inj h ▸ .reverseSolidus
    split at h
    · next hc => exact hc ▸ Option.some.inj h ▸ .solidus
    split at h
    · next hc => exact hc ▸ Option.some.inj h ▸ .backspace
    split at h
    · next hc => exact hc ▸ Option.some.inj h ▸ .formFeed
    split at h
    · next hc => exact hc ▸ Option.some.inj h ▸ .lineFeed
    split at h
    · next hc => exact hc ▸ Option.some.inj h ▸ .carriageReturn
    split at h
    · next hc => exact hc ▸ Option.some.inj h ▸ .tab
    · exact nomatch h
  · intro h
    cases h <;> rfl

theorem derives_parseUnicode :
    Derives (fun raw value => IsEscape (0x75 :: raw) value) parseUnicode s := by
  refine derives_parseHexQuad.bind fun hex u s₁ _ _ hu =>
    Derives.ite (fun hhigh => ?_) fun hhigh => ?_
  · rw [isHighSurrogate_iff] at hhigh
    refine Derives.read (Derives.failIf fun htake => ?_)
    refine (derives_drop (not_not.mp htake) rfl).bind fun mark _ s₂ _ _ hmark => ?_
    refine derives_parseHexQuad.bind fun hex' u' s₃ _ _ hu' => Derives.failIf fun hlow => ?_
    rw [Bool.not_eq_false, isLowSurrogate_iff] at hlow
    have hu4 := hu'.lt
    refine Derives.pure ?_
    rw [pair_eq, appendUtf8_eq (by omega) (by omega), hmark, List.append_nil]
    exact .pair hu hhigh hu' hlow
  · rw [isHighSurrogate_iff] at hhigh
    refine Derives.failIf fun hlow => Derives.pure ?_
    rw [isLowSurrogate_iff] at hlow
    have hns : ¬ (0xd800 ≤ u ∧ u ≤ 0xdfff) := by omega
    have hlt := hu.lt
    rw [appendUtf8_eq (by omega) hns, List.append_nil]
    exact .unicode hu hns

theorem derives_parseEscape : Derives IsEscape parseEscape s := by
  refine Derives.read (Derives.failIf fun hne => ?_)
  refine (derives_next hne).bind fun raw c s' _ _ hraw => ?_
  subst hraw
  cases hc : shortEscape c with
  | some b => exact Derives.pure (.short ((shortEscape_iff c b).mp hc))
  | none =>
    refine Derives.ite (fun hu => ?_) fun _ => derives_fail _
    rw [hu]
    exact derives_parseUnicode

theorem derives_stringLoop (fuel : Nat) (output : Text) (hs : s.rest.length < fuel) :
    Derives (fun raw value => ∃ chars bytes, raw = chars ++ [quote] ∧ IsChars chars bytes ∧
      value = output ++ bytes) (stringLoop fuel output) s := by
  induction fuel generalizing output s with
  | zero => exact absurd hs (Nat.not_lt_zero _)
  | succ fuel ih =>
    refine Derives.read (Derives.failIf fun hne => ?_)
    refine (derives_next hne).bind fun raw c s' hrest _ hraw => ?_
    subst hraw
    have hs' : s'.rest.length < fuel := by
      rw [hrest] at hs
      simp only [List.length_append, List.length_singleton] at hs
      omega
    refine Derives.ite (fun hq => ?_) fun hq => Derives.failIf fun hc => ?_
    · rw [hq]
      exact Derives.pure ⟨[], [], rfl, .nil, (List.append_nil _).symm⟩
    refine Derives.ite (fun hb => ?_) fun hb => ?_
    · refine (ih (output ++ [c]) hs').mono fun raw value _ _ h => ?_
      obtain ⟨chars, bytes, rfl, hchars, rfl⟩ := h
      refine ⟨c :: chars, c :: bytes, rfl, ?_, by rw [List.append_assoc]; rfl⟩
      exact .unescaped (UInt8.not_lt.mp hc) hq hb hchars
    · rw [not_not] at hb
      subst hb
      refine derives_parseEscape.bind fun escape bytes s₂ hrest' _ he => ?_
      have hs₂ : s₂.rest.length < fuel := by
        rw [hrest', List.length_append] at hs'
        omega
      refine (ih (output ++ bytes) hs₂).mono fun raw value _ _ h => ?_
      obtain ⟨chars, bytes', rfl, hchars, rfl⟩ := h
      refine ⟨backslash :: (escape ++ chars), bytes ++ bytes', ?_, .escaped he hchars, ?_⟩
      · simp only [List.nil_append, List.cons_append, List.append_assoc]
      · rw [List.append_assoc]

theorem derives_parseString :
    Derives (fun raw value => ∃ w name, raw = w ++ name ∧ IsWhitespace w ∧ IsString name value)
      parseString s := by
  refine (derives_consume quote).bind fun raw found s' _ _ hraw => Derives.failIf fun hfound => ?_
  rw [Bool.not_eq_false] at hfound
  rw [if_pos hfound] at hraw
  obtain ⟨w, hw, rfl⟩ := hraw
  refine Derives.read ((derives_stringLoop _ [] (Nat.lt_succ_self _)).mono fun raw value _ _ h => ?_)
  obtain ⟨chars, bytes, rfl, hchars, rfl⟩ := h
  refine ⟨w, quote :: (chars ++ [quote]), ?_, hw, chars, rfl, hchars⟩
  rw [List.append_assoc]
  rfl

theorem takes_parseUnicode {raw value rest : Text} (h : IsEscape (0x75 :: raw) value) :
    Takes parseUnicode raw value rest := by
  cases h with
  | @unicode hex u hu hns =>
    refine (takes_parseHexQuad hu).bind_nil (Takes.ite (fun hhigh => ?_) fun _ => ?_)
    · rw [isHighSurrogate_iff] at hhigh
      omega
    · have hlow : ¬ isLowSurrogate u = true := fun h => hns (by rw [isLowSurrogate_iff] at h; omega)
      have hlt := hu.lt
      rw [← appendUtf8_eq (by omega) hns]
      exact Takes.failIf hlow (Takes.pure _ rest)
  | @pair hex hex' u u' hu hhigh hu' hlow =>
    refine (takes_parseHexQuad hu).bind (Takes.ite (fun _ => ?_) fun h => ?_)
    · refine Takes.read fun position => Takes.failIf (not_not.mpr rfl) ?_
      have hmark : Takes (drop 2 : Code Unit) [backslash, 0x75] () (hex' ++ rest) := takes_drop [backslash, 0x75] _
      refine hmark.bind ((takes_parseHexQuad hu').bind_nil (Takes.failIf ?_ ?_))
      · rw [Bool.not_eq_false, isLowSurrogate_iff]
        exact hlow
      · rw [pair_eq, appendUtf8_eq (by omega) (by omega)]
        exact Takes.pure _ rest
    · exact absurd ((isHighSurrogate_iff u).mpr hhigh) h
  | short hc => exact nomatch hc

theorem takes_parseEscape {raw value rest : Text} (h : IsEscape raw value) :
    Takes parseEscape raw value rest := by
  have hread : ∀ {c : UInt8} {raw' : Text} {f : Unit → Code Text}, Takes (f ()) (c :: raw') value rest →
      Takes (Fallible.read >>= fun s : Input => failIf (s.rest = []) "truncated string escape" >>= f)
        (c :: raw') value rest := fun hf =>
    Takes.read fun position => Takes.failIf (List.cons_ne_nil _ _) hf
  have hunicode : ∀ {raw' : Text}, IsEscape (0x75 :: raw') value →
      Takes parseEscape (0x75 :: raw') value rest := fun {raw'} h =>
    hread ((takes_next 0x75 (raw' ++ rest)).bind (takes_parseUnicode h))
  cases h with
  | @short c b hc =>
    refine hread ((takes_next c rest).bind_nil ?_)
    rw [(shortEscape_iff c b).mpr hc]
    exact Takes.pure [b] rest
  | unicode hu hns => exact hunicode (.unicode hu hns)
  | pair hu hhigh hu' hlow => exact hunicode (.pair hu hhigh hu' hlow)

theorem takes_stringLoop {chars bytes : Text} (h : IsChars chars bytes) (fuel : Nat) (output rest : Text)
    (hfuel : chars.length < fuel) :
    Takes (stringLoop fuel output) (chars ++ [quote]) (output ++ bytes) rest := by
  have hread : ∀ {fuel : Nat} {output raw value : Text} {c : UInt8},
      Takes (if c = quote then pure output
        else do
          failIf (c < 0x20) "control character in string"
          if c ≠ backslash then stringLoop fuel (output ++ [c])
          else do
            let decoded ← parseEscape
            stringLoop fuel (output ++ decoded)) raw value rest →
      Takes (stringLoop (fuel + 1) output) (c :: raw) value rest := fun {fuel output raw value c} h =>
    Takes.read fun position => Takes.failIf (List.cons_ne_nil _ _) ((takes_next c (raw ++ rest)).bind h)
  induction h generalizing fuel output with
  | nil =>
    obtain ⟨fuel, rfl⟩ := Nat.exists_eq_succ_of_ne_zero (Nat.ne_zero_of_lt hfuel)
    refine hread (Takes.ite (fun _ => ?_) fun h => absurd rfl h)
    rw [List.append_nil]
    exact Takes.pure output rest
  | @unescaped b chars bytes hb hq hs h ih =>
    obtain ⟨fuel, rfl⟩ := Nat.exists_eq_succ_of_ne_zero (Nat.ne_zero_of_lt hfuel)
    refine hread (Takes.ite (fun h => absurd h hq) fun _ => Takes.failIf (UInt8.not_lt.mpr hb) ?_)
    refine Takes.ite (fun _ => ?_) fun h => absurd hs h
    have h' := ih fuel (output ++ [b]) (Nat.lt_of_succ_lt_succ hfuel)
    rwa [List.append_assoc] at h'
  | @escaped escape bytes chars bytes' he h ih =>
    obtain ⟨fuel, rfl⟩ := Nat.exists_eq_succ_of_ne_zero (Nat.ne_zero_of_lt hfuel)
    refine hread (Takes.ite (fun h => absurd h (by decide)) fun _ => Takes.failIf (by decide) ?_)
    refine Takes.ite (fun h => absurd rfl h) fun _ => ?_
    show Takes _ (escape ++ chars ++ [quote]) _ _
    rw [List.append_assoc, ← List.append_assoc output]
    refine (takes_parseEscape he).bind (ih fuel (output ++ bytes) ?_)
    simp only [List.length_cons, List.length_append] at hfuel
    omega

theorem takes_parseString {name value rest : Text} (h : IsString name value) :
    Takes parseString name value rest := by
  obtain ⟨chars, rfl, hchars⟩ := h
  refine takes_expected rfl (Takes.read fun position => ?_)
  refine takes_stringLoop hchars _ [] rest ?_
  simp only [List.length_append]
  omega

/-! ## numbers -/

theorem isDigit_iff (b : UInt8) : isDigit b = true ↔ 0x30 ≤ b ∧ b ≤ 0x39 := decide_eq_true_iff

theorem derives_parseDigits (message : String) :
    Derives (fun raw _ => raw ≠ [] ∧ IsDigits raw) (parseDigits message) s := by
  refine Derives.read ((derives_skipWhile isDigit).bind fun raw _ s' _ hp hraw => Derives.read ?_)
  refine (derives_failIf _ message).mono fun raw' _ _ _ h => ?_
  obtain ⟨rfl, hne⟩ := h
  rw [List.append_nil]
  refine ⟨fun hnil => hne ?_, fun b hb => (isDigit_iff b).mp (hraw b hb)⟩
  rw [hp, hnil]
  rfl

theorem takes_parseDigits {raw rest : Text} (message : String) (hne : raw ≠ []) (hraw : IsDigits raw)
    (hrest : Stops isDigit rest) : Takes (parseDigits message) raw () rest := by
  intro position
  have hskip := takes_skipWhile (ε := MetadataError)
    (fun b hb => (isDigit_iff b).mpr (hraw b hb)) hrest position
  have hpos : ¬ (position + raw.length = position) := by
    have := List.length_pos_iff.mpr hne
    omega
  have hcheck : Takes (failIf (position + raw.length = position) message) [] () rest := takes_failIf hpos
  show Fallible.exec (skipWhile isDigit >>= fun _ => Fallible.read >>= fun s : Input =>
    failIf (s.position = position) message : Code Unit) ⟨position, raw ++ rest⟩ = _
  rw [exec_bind, hskip]
  exact hcheck (position + raw.length)

theorem derives_whenNext {p : UInt8 → Bool} {x : Code Unit} {G : Text → Unit → Prop}
    (hx : ∀ s, Derives G x s) :
    Derives (fun raw _ => raw = [] ∨ ∃ b raw', p b = true ∧ raw = b :: raw' ∧ G raw' ())
      (whenNext p x) s := by
  refine Derives.read (Derives.ite (fun h => ?_) fun _ => Derives.pure (.inl rfl))
  obtain ⟨b, hb, hp⟩ := (Option.any_eq_true _ _).mp h
  obtain ⟨rest, hrest⟩ := List.head?_eq_some_iff.mp hb
  refine (derives_advance hrest).bind fun raw _ s' _ _ hraw => (hx s').mono fun raw' _ _ _ hG => ?_
  exact .inr ⟨b, raw', hp, by rw [hraw]; rfl, hG⟩

theorem takes_whenNext {p : UInt8 → Bool} {x : Code Unit} {b : UInt8} {raw rest : Text}
    (hp : p b = true) (hx : Takes x raw () rest) : Takes (whenNext p x) (b :: raw) () rest := by
  refine Takes.read fun position => Takes.ite (fun _ => ?_) fun h => absurd hp h
  exact (takes_advance b (raw ++ rest)).bind hx

theorem takes_whenNext_of_stops {p : UInt8 → Bool} {x : Code Unit} {rest : Text}
    (hrest : Stops p rest) : Takes (whenNext p x) [] () rest := by
  refine Takes.read fun position => Takes.ite (fun h => ?_) fun _ => Takes.pure () rest
  obtain ⟨b, hb, hp⟩ := (Option.any_eq_true _ _).mp h
  exact absurd hp (by rw [hrest b hb]; exact Bool.false_ne_true)

theorem derives_parseInteger : Derives (fun raw _ => IsInteger raw) parseInteger s := by
  refine Derives.read (Derives.failIf fun hne => Derives.peek hne fun b rest hrest => ?_)
  refine Derives.ite (fun hb => ?_) fun _ => Derives.failIf fun hd => ?_
  · refine (derives_advance hrest).mono fun raw _ _ _ hraw => ?_
    rw [hraw, hb]
    exact .zero
  · rw [not_or, UInt8.not_lt, UInt8.not_lt] at hd
    have hb : isDigit b = true := (isDigit_iff b).mpr ⟨UInt8.le_trans (by decide) hd.1, hd.2⟩
    refine (derives_skipWhile_cons hrest hb).mono fun raw _ _ _ h => ?_
    obtain ⟨ds, rfl, hds⟩ := h
    exact .nonzero hd fun c hc => (isDigit_iff c).mp (hds c hc)

theorem takes_parseInteger {raw rest : Text} (h : IsInteger raw) (hrest : Stops isDigit rest) :
    Takes parseInteger raw () rest := by
  cases h with
  | zero =>
    refine Takes.read fun position => Takes.failIf (List.cons_ne_nil _ _) (Takes.peek ?_)
    exact Takes.ite (fun _ => takes_advance 0x30 rest) fun h => absurd rfl h
  | @nonzero d ds hd hds =>
    refine Takes.read fun position => Takes.failIf (List.cons_ne_nil _ _) (Takes.peek ?_)
    refine Takes.ite (fun h => ?_) fun _ => Takes.failIf ?_ ?_
    · rw [h] at hd
      exact absurd hd.1 (by decide)
    · rw [not_or, UInt8.not_lt, UInt8.not_lt]
      exact hd
    · refine takes_skipWhile (fun b hb => (isDigit_iff b).mpr ?_) hrest
      rcases List.mem_cons.mp hb with rfl | hb
      · exact ⟨UInt8.le_trans (by decide) hd.1, hd.2⟩
      · exact hds b hb

theorem derives_parseFraction : Derives (fun raw _ => IsFraction raw) parseFraction s := by
  refine (derives_whenNext fun s => derives_parseDigits _).mono fun raw _ _ _ h => ?_
  rcases h with rfl | ⟨b, ds, hb, rfl, hne, hds⟩
  · exact .none
  · rw [of_decide_eq_true hb]
    exact .some hne hds

theorem takes_parseFraction {raw rest : Text} (h : IsFraction raw)
    (hrest : Stops (fun b => b = 0x2e) rest) (hdigit : Stops isDigit rest) :
    Takes parseFraction raw () rest := by
  cases h with
  | none => exact takes_whenNext_of_stops hrest
  | some hne hds => exact takes_whenNext rfl (takes_parseDigits _ hne hds hdigit)

theorem derives_parseExponent : Derives (fun raw _ => IsExponent raw) parseExponent s := by
  have hsign : ∀ s, Derives (fun raw _ => raw = [] ∨ raw = [0x2b] ∨ raw = [0x2d])
      (whenNext (fun b => b = 0x2b ∨ b = 0x2d) (pure ())) s := fun s => by
    refine (derives_whenNext (G := fun raw _ => raw = []) fun s => Derives.pure rfl).mono
      fun raw _ _ _ h => ?_
    rcases h with rfl | ⟨b, _, hb, rfl, rfl⟩
    · exact .inl rfl
    · exact .inr ((of_decide_eq_true hb).imp (congrArg (· :: [])) (congrArg (· :: [])))
  refine (derives_whenNext (G := fun raw _ => ∃ sign ds, raw = sign ++ ds ∧
    (sign = [] ∨ sign = [0x2b] ∨ sign = [0x2d]) ∧ ds ≠ [] ∧ IsDigits ds) fun s => ?_).mono
    fun raw _ _ _ h => ?_
  · refine (hsign s).bind fun sign _ s' _ _ hs => ?_
    refine (derives_parseDigits _).mono fun ds _ _ _ hds => ⟨sign, ds, rfl, hs, hds⟩
  · rcases h with rfl | ⟨b, _, hb, rfl, sign, ds, rfl, hs, hne, hds⟩
    · exact .none
    · exact .some (of_decide_eq_true hb) hs hne hds

theorem takes_parseExponent {raw rest : Text} (h : IsExponent raw)
    (hrest : Stops (fun b => b = 0x65 ∨ b = 0x45) rest) (hdigit : Stops isDigit rest) :
    Takes parseExponent raw () rest := by
  cases h with
  | none => exact takes_whenNext_of_stops hrest
  | @some e sign ds he hsign hne hds =>
    refine takes_whenNext (decide_eq_true he) ?_
    refine Takes.bind (a := ()) ?_ (takes_parseDigits _ hne hds hdigit)
    rcases hsign with rfl | rfl | rfl
    · refine takes_whenNext_of_stops fun b hb => decide_eq_false ?_
      obtain ⟨d, ds, rfl⟩ := List.exists_cons_of_ne_nil hne
      obtain rfl : d = b := Option.some.inj hb
      have hd := (hds d List.mem_cons_self).1
      rintro (rfl | rfl)
      · exact absurd hd (by decide)
      · exact absurd hd (by decide)
    · exact takes_whenNext rfl (Takes.pure () _)
    · exact takes_whenNext rfl (Takes.pure () _)

theorem derives_parseNumber (hs : s.rest ≠ []) :
    Derives (fun raw value => IsNumber raw ∧ value = raw) parseNumber s := by
  have hminus : ∀ b rest, s.rest = b :: rest →
      Derives (fun raw _ => raw = [] ∨ raw = [0x2d]) (if b = 0x2d then advance else pure () : Code Unit) s :=
    fun b rest hrest => by
      refine Derives.ite (fun hb => ?_) fun _ => Derives.pure (.inl rfl)
      rw [hb] at hrest
      exact (derives_advance hrest).mono fun raw _ _ _ h => .inr h
  refine Derives.read (Derives.peek hs fun b rest hrest => ?_)
  refine (hminus b rest hrest).bind fun minus _ s₁ hs₁ hp₁ hm => ?_
  refine derives_parseInteger.bind fun int _ s₂ hs₂ hp₂ hi => ?_
  refine derives_parseFraction.bind fun frac _ s₃ hs₃ hp₃ hf => ?_
  refine derives_parseExponent.bind fun exp _ s₄ hs₄ hp₄ he => Derives.read (Derives.pure ?_)
  rw [List.append_nil]
  refine ⟨.mk hm hi hf he, ?_⟩
  have hlen : s₄.position - s.position = (minus ++ (int ++ (frac ++ exp))).length := by
    simp only [List.length_append]
    omega
  have htext : s.rest = (minus ++ (int ++ (frac ++ exp))) ++ s₄.rest := by
    rw [hs₁, hs₂, hs₃, hs₄]
    simp only [List.append_assoc]
  rw [hlen, htext, List.take_left]

/-- what a number may be followed by -/
def Delimited (rest : Text) : Prop :=
  ∀ b ∈ rest.head?, isSpace b = true ∨ b = 0x2c ∨ b = 0x5d ∨ b = 0x7d

theorem Delimited.stops {rest : Text} (h : Delimited rest) {p : UInt8 → Bool}
    (hp : ([0x20, 0x09, 0x0a, 0x0b, 0x0c, 0x0d, 0x2c, 0x5d, 0x7d] : Text).any p = false) :
    Stops p rest := by
  intro b hb
  refine Bool.eq_false_iff.mpr (List.any_eq_false.mp hp b ?_)
  rcases h b hb with hs | rfl | rfl | rfl
  · have := (isSpace_iff b).mp hs
    simp only [List.mem_cons, List.not_mem_nil, or_false] at this ⊢
    grind
  · decide
  · decide
  · decide

theorem IsInteger.head {int : Text} (h : IsInteger int) : ∃ b rest, int = b :: rest ∧ isDigit b = true := by
  cases h with
  | zero => exact ⟨0x30, [], rfl, rfl⟩
  | @nonzero d ds hd hds =>
    exact ⟨d, ds, rfl, (isDigit_iff d).mpr ⟨UInt8.le_trans (by decide) hd.1, hd.2⟩⟩

theorem takes_minus {minus int : Text} (rest : Text) (hminus : minus = [] ∨ minus = [0x2d])
    (hint : IsInteger int) : ∃ b t, minus ++ (int ++ rest) = b :: t ∧
      Takes (if b = 0x2d then advance else pure () : Code Unit) minus () (int ++ rest) := by
  obtain ⟨d, ds, rfl, hd⟩ := hint.head
  rcases hminus with rfl | rfl
  · refine ⟨d, ds ++ rest, rfl, Takes.ite (fun h => ?_) fun _ => Takes.pure () _⟩
    rw [h] at hd
    exact absurd hd (by decide)
  · exact ⟨0x2d, _, rfl, Takes.ite (fun _ => takes_advance 0x2d _) fun h => absurd rfl h⟩

theorem Stops.append {p : UInt8 → Bool} {raw rest : Text} (hraw : ∀ b ∈ raw.head?, p b = false)
    (hrest : Stops p rest) : Stops p (raw ++ rest) := by
  cases raw with
  | nil => exact hrest
  | cons b raw => exact hraw

theorem IsFraction.head {frac : Text} (h : IsFraction frac) : ∀ b ∈ frac.head?, b = 0x2e := by
  cases h with
  | none => exact fun b hb => nomatch hb
  | some hne hds => exact fun b hb => (Option.some.inj hb).symm

theorem IsExponent.head {exp : Text} (h : IsExponent exp) : ∀ b ∈ exp.head?, b = 0x65 ∨ b = 0x45 := by
  cases h with
  | none => exact fun b hb => nomatch hb
  | some he hsign hne hds => exact fun b hb => Option.some.inj hb ▸ he

theorem takes_parseNumber {raw rest : Text} (h : IsNumber raw) (hrest : Delimited rest) :
    Takes parseNumber raw raw rest := by
  obtain ⟨hminus, hint, hfrac, hexp⟩ := h
  next minus int frac exp =>
  have hdigit : Stops isDigit rest := hrest.stops rfl
  have hdigit' : Stops isDigit (exp ++ rest) := by
    refine Stops.append (fun b hb => ?_) hdigit
    rcases hexp.head b hb with rfl | rfl <;> rfl
  have hpoint : Stops (fun b => b = 0x2e) (exp ++ rest) := by
    refine Stops.append (fun b hb => ?_) (hrest.stops rfl)
    rcases hexp.head b hb with rfl | rfl <;> rfl
  have hdigit'' : Stops isDigit (frac ++ (exp ++ rest)) := by
    refine Stops.append (fun b hb => ?_) hdigit'
    rw [hfrac.head b hb]
    rfl
  have hint' := takes_parseInteger hint hdigit''
  have hfrac' := takes_parseFraction hfrac hpoint hdigit'
  have hexp' := takes_parseExponent hexp (hrest.stops rfl) hdigit
  obtain ⟨b, t, hbt, hminus'⟩ := takes_minus (frac ++ (exp ++ rest)) hminus hint
  intro position
  have htext : minus ++ (int ++ (frac ++ exp)) ++ rest = minus ++ (int ++ (frac ++ (exp ++ rest))) := by
    simp only [List.append_assoc]
  calc parseNumber.exec ⟨position, minus ++ (int ++ (frac ++ exp)) ++ rest⟩
    _ = (do
          (if b = 0x2d then advance else pure () : Code Unit)
          parseInteger
          parseFraction
          parseExponent
          let s ← Fallible.read
          return (b :: t).take (s.position - position) : Code Text).exec
        ⟨position, minus ++ (int ++ (frac ++ (exp ++ rest)))⟩ := by
      rw [htext, hbt]
      rfl
    _ = (.ok ((b :: t).take (position + minus.length + int.length + frac.length + exp.length - position)),
        ⟨position + minus.length + int.length + frac.length + exp.length, rest⟩) := by
      rw [hminus'.exec_bind, hint'.exec_bind, hfrac'.exec_bind, hexp'.exec_bind]
      rfl
    _ = (.ok (minus ++ (int ++ (frac ++ exp))),
        ⟨position + (minus ++ (int ++ (frac ++ exp))).length, rest⟩) := by
      have hlen : position + minus.length + int.length + frac.length + exp.length =
          position + (minus ++ (int ++ (frac ++ exp))).length := by
        simp only [List.length_append]
        omega
      rw [hlen, Nat.add_sub_cancel_left, ← hbt, ← htext, List.take_left]

end HyperMoE.Metadata
