import HyperMoE.Metadata.Writers

/-!
# The three string helpers

`escapeJson` of `ModelManifest.cpp`, and `escape` of `QwenCheckpointLoader.cpp` and of
`RealCheckpointConverter.cpp`.  They differ in the control characters that they know.

* `escapes_manifest`, `escapes_tokenizer`, `escapes_report`   each treats every other byte right;
* `bare_tokenizer_iff`, `bare_report_iff`                     and what it leaves bare.
-/

namespace HyperMoE.Metadata

open Lib

/-! ## ModelManifest.cpp -/

def hexDigits : Text := ascii "0123456789abcdef"

def digitOf (n : UInt8) : UInt8 := hexDigits.getD n.toNat 0

def escapeJsonByte (character : UInt8) : Text :=
  if character = quote then ascii "\\\""
  else if character = backslash then ascii "\\\\"
  else if character = 0x08 then ascii "\\b"
  else if character = 0x0c then ascii "\\f"
  else if character = 0x0a then ascii "\\n"
  else if character = 0x0d then ascii "\\r"
  else if character = 0x09 then ascii "\\t"
  else if character < 0x20 then
    ascii "\\u00" ++ [digitOf (character >>> 4), digitOf (character &&& 0x0f)]
  else [character]

def escapeJson (value : Text) : Text := escapeWith escapeJsonByte value

/-! ## QwenCheckpointLoader.cpp -/

def tokenizerByte (character : UInt8) : Text :=
  (if character = backslash ∨ character = quote then [backslash] else []) ++
    if character = 0x0a then ascii "\\n"
    else if character = 0x0d then ascii "\\r"
    else if character = 0x09 then ascii "\\t"
    else [character]

/-- `escape` of `QwenCheckpointLoader.cpp` -/
def escapeTokenizer (value : Text) : Text := escapeWith tokenizerByte value

/-! ## RealCheckpointConverter.cpp -/

def reportByte (character : UInt8) : Text :=
  (if character = backslash ∨ character = quote then [backslash] else []) ++ [character]

/-- `escape` of `RealCheckpointConverter.cpp` -/
def escapeReport (value : Text) : Text := escapeWith reportByte value

/-! ## what they write -/

theorem isChars_short {c b : UInt8} (h : IsShort c b) : IsChars [backslash, c] [b] :=
  .escaped (.short h) .nil

theorem isChars_byte {b : UInt8} (hb : 0x20 ≤ b) (hq : b ≠ quote) (hs : b ≠ backslash) :
    IsChars [b] [b] := .unescaped hb hq hs .nil

/-- the two digits of a control character -/
theorem control_digits : ∀ n < 32, hexDigit (digitOf (UInt8.ofNat n >>> 4)) = some (n / 16) ∧
    hexDigit (digitOf (UInt8.ofNat n &&& 0x0f)) = some (n % 16) ∧ utf8 n = [UInt8.ofNat n] := by
  decide

theorem isChars_control {b : UInt8} (h : b < 0x20) :
    IsChars (ascii "\\u00" ++ [digitOf (b >>> 4), digitOf (b &&& 0x0f)]) [b] := by
  have hlt : b.toNat < 32 := UInt8.lt_iff_toNat_lt.mp h
  obtain ⟨hhigh, hlow, hutf⟩ := control_digits b.toNat hlt
  rw [UInt8.ofNat_toNat] at hhigh hlow hutf
  have hzero : IsHexDigit 0x30 0 := .decimal (by decide)
  have hquad := IsHexQuad.mk hzero hzero ((hexDigit_iff _ _).mp hhigh) ((hexDigit_iff _ _).mp hlow)
  have hvalue : 0 * 16 ^ 3 + 0 * 16 ^ 2 + b.toNat / 16 * 16 + b.toNat % 16 = b.toNat := by omega
  rw [hvalue] at hquad
  have hescape := IsEscape.unicode hquad (by omega)
  rw [hutf] at hescape
  exact .escaped hescape .nil

theorem isChars_escapeJsonByte (b : UInt8) : IsChars (escapeJsonByte b) [b] := by
  unfold escapeJsonByte
  split_ifs with hq hs h8 hc ha hd h9 hlt
  · exact hq ▸ isChars_short .quotationMark
  · exact hs ▸ isChars_short .reverseSolidus
  · exact h8 ▸ isChars_short .backspace
  · exact hc ▸ isChars_short .formFeed
  · exact ha ▸ isChars_short .lineFeed
  · exact hd ▸ isChars_short .carriageReturn
  · exact h9 ▸ isChars_short .tab
  · exact isChars_control hlt
  · exact isChars_byte (UInt8.not_lt.mp hlt) hq hs

theorem escapes_manifest : Escapes escapeJsonByte := fun b => .inl (isChars_escapeJsonByte b)

theorem not_bare_manifest (b : UInt8) : ¬ Bare escapeJsonByte b :=
  not_bare_of_isChars (isChars_escapeJsonByte b)

theorem isChars_marked {b : UInt8} (h : b = backslash ∨ b = quote) : IsChars [backslash, b] [b] := by
  rcases h with rfl | rfl
  · exact isChars_short .reverseSolidus
  · exact isChars_short .quotationMark

theorem isChars_reportByte {b : UInt8} (h : 0x20 ≤ b) : IsChars (reportByte b) [b] := by
  unfold reportByte
  split_ifs with hmark
  · exact isChars_marked hmark
  · exact isChars_byte h (fun hq => hmark (.inr hq)) fun hs => hmark (.inl hs)

/-- neither of the two marked bytes is a control character -/
theorem not_marked {b : UInt8} (h : b < 0x20) : ¬ (b = backslash ∨ b = quote) := by
  rintro (rfl | rfl) <;> exact absurd h (by decide)

theorem reportByte_control {b : UInt8} (h : b < 0x20) : reportByte b = [b] := by
  unfold reportByte
  rw [if_neg (not_marked h)]
  rfl

theorem escapes_report : Escapes reportByte := by
  intro b
  by_cases h : b < 0x20
  · exact .inr ⟨h, reportByte_control h⟩
  · exact .inl (isChars_reportByte (UInt8.not_lt.mp h))

theorem bare_report_iff (b : UInt8) : Bare reportByte b ↔ b < 0x20 :=
  ⟨fun h => h.1, fun h => ⟨h, reportByte_control h⟩⟩

/-- apart from three control characters, the one helper does what the other does -/
theorem tokenizerByte_eq {b : UInt8} (h : b ∉ [0x0a, 0x0d, 0x09]) : tokenizerByte b = reportByte b := by
  simp only [List.mem_cons, List.not_mem_nil, or_false, not_or] at h
  unfold tokenizerByte reportByte
  rw [if_neg h.1, if_neg h.2.1, if_neg h.2.2]

theorem isChars_tokenizerByte {b : UInt8} (h : b ∈ [0x0a, 0x0d, 0x09]) :
    IsChars (tokenizerByte b) [b] := by
  simp only [List.mem_cons, List.not_mem_nil, or_false] at h
  rcases h with rfl | rfl | rfl
  · exact isChars_short .lineFeed
  · exact isChars_short .carriageReturn
  · exact isChars_short .tab

theorem escapes_tokenizer : Escapes tokenizerByte := by
  intro b
  by_cases h : b ∈ [0x0a, 0x0d, 0x09]
  · exact .inl (isChars_tokenizerByte h)
  · unfold Bare
    rw [tokenizerByte_eq h]
    exact escapes_report b

theorem bare_tokenizer_iff (b : UInt8) :
    Bare tokenizerByte b ↔ b < 0x20 ∧ b ∉ [0x0a, 0x0d, 0x09] := by
  constructor
  · intro h
    exact ⟨h.1, fun hmem => not_bare_of_isChars (isChars_tokenizerByte hmem) h⟩
  · rintro ⟨hlt, hmem⟩
    exact ⟨hlt, (tokenizerByte_eq hmem).trans (reportByte_control hlt)⟩

end HyperMoE.Metadata
