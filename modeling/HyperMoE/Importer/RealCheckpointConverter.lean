import HyperMoE.Importer.QwenCheckpointLoader

/-!
# The report of a conversion

`RealCheckpointConverter.cpp`: the report that is written next to a converted checkpoint.

* `RealCheckpointConversionReport`   what is reported, `toJson` the document;
* `parseJson_toJson_iff`             when the document can be read back;
* `writers_agree_iff`                which strings each of the writers agrees with the parser on.
-/

namespace HyperMoE.Importer.RealCheckpoint

open Lib Lib.Outcome Metadata Qwen

inductive ExpertStorageEncoding where
  | Preserve
  | Int8
  deriving DecidableEq, Repr

/-- `packing.expertStorage` -/
def ExpertStorageEncoding.name : ExpertStorageEncoding → String
  | .Preserve => "PRESERVE"
  | .Int8 => "INT8_PER_TENSOR_AFFINE"

/-- a figure with digits after the point, as the stream prints it -/
abbrev Figure := { raw : Text // IsNumber raw }

structure RealCheckpointConversionReport where
  modelName : Text
  sourceArchitecture : Text
  tokenizer : QwenTokenizerMetadata
  layers : Nat
  experts : Nat
  totalParameters : Nat
  shardCount : Nat
  tensorCount : Nat
  bytesWritten : Nat
  expertStorage : ExpertStorageEncoding
  sourceExpertBytes : Nat
  packedExpertBytes : Nat
  elapsed : Figure

namespace RealCheckpointConversionReport

/-- all but the last one -/
def figures (r : RealCheckpointConversionReport) : List (String × Text) :=
  [("schema", quoted (ascii "hypermoe.real-checkpoint-conversion.v1")),
   ("model", quoted (escapeReport r.modelName)),
   ("source_architecture", quoted (escapeReport r.sourceArchitecture)),
   ("layers", decimal r.layers),
   ("experts", decimal r.experts),
   ("parameters", decimal r.totalParameters),
   ("source_shards", decimal r.shardCount),
   ("source_tensors", decimal r.tensorCount),
   ("packed_bytes", decimal r.bytesWritten),
   ("expert_storage", quoted (ascii r.expertStorage.name)),
   ("source_expert_bytes", decimal r.sourceExpertBytes),
   ("packed_expert_bytes", decimal r.packedExpertBytes),
   ("elapsed_ms", r.elapsed.1)]

/-- the document of the tokenizer, with the end of its last line, comes before the last bracket -/
def toJson (r : RealCheckpointConversionReport) : Load Text := do
  let tokenizer ← r.tokenizer.toJson
  return 0x7b :: (separated ((r.figures ++ [("tokenizer", tokenizer)]).map field) ++ ascii "\x7d\n")

def fields (r : RealCheckpointConversionReport) : List (String × Text) :=
  r.figures ++ [("tokenizer", object r.tokenizer.fields)]

/-- the strings have no control character, and those of the tokenizer but three -/
def Writable (r : RealCheckpointConversionReport) : Prop :=
  (∀ b ∈ r.modelName ++ r.sourceArchitecture, 0x20 ≤ b) ∧ r.tokenizer.Writable

/-- what the last text ends with stands at the end -/
theorem separated_concat (raws : List Text) (raw w : Text) :
    separated (raws ++ [raw ++ w]) = separated (raws ++ [raw]) ++ w := by
  induction raws with
  | nil => rfl
  | cons a raws ih =>
    cases raws with
    | nil => simp [separated]
    | cons b raws =>
      show a ++ 0x2c :: separated (b :: raws ++ [raw ++ w]) =
        (a ++ 0x2c :: separated (b :: raws ++ [raw])) ++ w
      rw [ih, List.append_assoc]
      rfl

theorem toJson_eq {r : RealCheckpointConversionReport} (h : r.tokenizer.validate = .ok ()) :
    r.toJson = .ok (document r.fields) := by
  have hjson : r.tokenizer.toJson = .ok (document r.tokenizer.fields) := bind_eq_ok.mpr ⟨(), h, rfl⟩
  refine bind_eq_ok.mpr ⟨_, hjson, congrArg Except.ok ?_⟩
  have hfield : field ("tokenizer", document r.tokenizer.fields) =
      field ("tokenizer", object r.tokenizer.fields) ++ ascii "\n" := by
    unfold field document
    simp only [List.append_assoc]
  have hlast : separated ((r.figures ++ [("tokenizer", document r.tokenizer.fields)]).map field) =
      separated (r.fields.map field) ++ ascii "\n" := by
    rw [List.map_append, List.map_singleton, hfield, separated_concat, ← List.map_singleton,
      ← List.map_append]
    rfl
  show 0x7b :: (separated _ ++ _) = 0x7b :: ((separated _ ++ ascii "\n") ++ [0x7d]) ++ ascii "\n"
  rw [hlast, List.cons_append, List.append_assoc, List.append_assoc, List.append_assoc]
  rfl

theorem named_fields (r : RealCheckpointConversionReport) : Named (r.fields.map Prod.fst) := by
  show Named ["schema", "model", "source_architecture", "layers", "experts", "parameters",
    "source_shards", "source_tensors", "packed_bytes", "expert_storage", "source_expert_bytes",
    "packed_expert_bytes", "elapsed_ms", "tokenizer"]
  decide +kernel

theorem plain_name (e : ExpertStorageEncoding) : Plain e.name := by
  cases e <;> decide +kernel

theorem readable_fields (r : RealCheckpointConversionReport) :
    (∀ f ∈ r.fields, Readable 127 f.2) ∧
      ((∀ f ∈ r.fields, scan .outside f.2 ≠ none) ↔ r.Writable) := by
  have hplain : ∀ name, Plain name → Readable 127 (quoted (ascii name)) ∧
      scan .outside (quoted (ascii name)) ≠ none := fun name h => readable_of_isValue (.string h.isString)
  have hschema := hplain "hypermoe.real-checkpoint-conversion.v1" (by decide +kernel)
  have hstorage := hplain r.expertStorage.name (plain_name r.expertStorage)
  have hmodel := escapes_report.readable 127 r.modelName
  have hsource := escapes_report.readable 127 r.sourceArchitecture
  have hnumber : ∀ n, Readable 127 (decimal n) ∧ scan .outside (decimal n) ≠ none :=
    fun n => readable_of_isValue (.number (isNumber_decimal n))
  have hvalue : IsValue 127 _ _ := .number r.elapsed.2
  have helapsed := readable_of_isValue hvalue
  obtain ⟨hread, hscan⟩ := r.tokenizer.readable_fields 125
  obtain ⟨htokenizer, htokenizer'⟩ := readable_object r.tokenizer.named_fields hread
  constructor
  · unfold fields figures
    simp only [List.forall_mem_append, List.forall_mem_cons, List.not_mem_nil, false_implies,
      implies_true, and_true]
    exact ⟨⟨hschema.1, hmodel.1, hsource.1, (hnumber _).1, (hnumber _).1, (hnumber _).1, (hnumber _).1,
      (hnumber _).1, (hnumber _).1, hstorage.1, (hnumber _).1, (hnumber _).1, helapsed.1⟩, htokenizer⟩
  · have hwritable : r.Writable ↔ ((∀ b ∈ r.modelName, ¬ Bare reportByte b) ∧
        ∀ b ∈ r.sourceArchitecture, ¬ Bare reportByte b) ∧ r.tokenizer.Writable := by
      simp only [bare_report_iff, UInt8.not_lt]
      exact and_congr_left' List.forall_mem_append
    rw [hwritable, ← hmodel.2, ← hsource.2, ← hscan, ← htokenizer']
    unfold fields figures
    simp only [List.forall_mem_append, List.forall_mem_cons, List.not_mem_nil, false_implies,
      implies_true, and_true]
    constructor
    · rintro ⟨⟨-, hmodel', hsource', -⟩, hlast⟩
      exact ⟨⟨hmodel', hsource'⟩, hlast⟩
    · rintro ⟨⟨hmodel', hsource'⟩, hlast⟩
      exact ⟨⟨hschema.2, hmodel', hsource', (hnumber _).2, (hnumber _).2, (hnumber _).2, (hnumber _).2,
        (hnumber _).2, (hnumber _).2, hstorage.2, (hnumber _).2, (hnumber _).2, helapsed.2⟩, hlast⟩

/-- the report can be read back exactly if its strings are writable -/
theorem parseJson_toJson_iff {r : RealCheckpointConversionReport} (h : r.tokenizer.validate = .ok ()) :
    ∃ text, r.toJson = .ok text ∧ ((∃ v, parseJson text = .ok v) ↔ r.Writable) := by
  obtain ⟨hread, hscan⟩ := r.readable_fields
  exact ⟨_, toJson_eq h, (parseJson_document_iff r.named_fields hread).trans hscan⟩

end RealCheckpointConversionReport

/-! ## every writer -/

/-- The writer of the manifest agrees with the parser on every string, the other two exactly on the
strings without the control characters that they do not know; and so do the documents. -/
theorem writers_agree_iff (s : Text) (files : TokenizerFiles) (n : Nat) :
    parseJson (quoted (escapeJson s)) = .ok (.string s) ∧
    (parseJson (quoted (escapeTokenizer s)) = .ok (.string s) ↔
      ∀ b ∈ s, b < 0x20 → b ∈ [0x0a, 0x0d, 0x09]) ∧
    (parseJson (quoted (escapeReport s)) = .ok (.string s) ↔ ∀ b ∈ s, 0x20 ≤ b) ∧
    (∀ t, loadTokenizer files n = .ok t →
      ∃ text, t.toJson = .ok text ∧ ((∃ v, parseJson text = .ok v) ↔ t.Writable)) ∧
    (∀ r : RealCheckpointConversionReport, loadTokenizer files n = .ok r.tokenizer →
      ∃ text, r.toJson = .ok text ∧ ((∃ v, parseJson text = .ok v) ↔ r.Writable)) := by
  refine ⟨?_, ?_, ?_, fun t h => ?_, fun r h => ?_⟩
  · exact (parseJson_quoted_iff escapes_manifest).mpr fun b _ => not_bare_manifest b
  · refine (parseJson_quoted_iff escapes_tokenizer).trans ?_
    simp only [QwenTokenizerMetadata.not_bare_tokenizer_iff]
  · refine (parseJson_quoted_iff escapes_report).trans ?_
    simp only [bare_report_iff, UInt8.not_lt]
  · exact QwenTokenizerMetadata.parseJson_toJson_iff (validate_of_load h)
  · exact RealCheckpointConversionReport.parseJson_toJson_iff (validate_of_load h)

/-- a vocabulary of two tokens, and the class as the configuration spells it -/
def filesOf (tokenizerClass : Text) : TokenizerFiles where
  tokenizer := some (ascii "\x7b\"model\":\x7b\"type\":\"BPE\",\"vocab\":[\"a\",\"b\"]\x7d\x7d")
  tokenizerConfig := some (ascii "\x7b\"tokenizer_class\":" ++ (quoted tokenizerClass ++ ascii "\x7d"))
  config := some (ascii "\x7b\"eos_token_id\":1\x7d")
  specialTokensMap := false

def reportOf (tokenizer : QwenTokenizerMetadata) : RealCheckpointConversionReport where
  modelName := ascii "m"
  sourceArchitecture := ascii "qwen3_moe"
  tokenizer := tokenizer
  layers := 1
  experts := 1
  totalParameters := 12
  shardCount := 1
  tensorCount := 12
  bytesWritten := 48
  expertStorage := .Preserve
  sourceExpertBytes := 12
  packedExpertBytes := 12
  elapsed := ⟨decimal 1, isNumber_decimal 1⟩

/-- a tokenizer whose documents are read back, and one whose class has a control character -/
theorem writers_agree_iff_loaded :
    (∃ t, loadTokenizer (filesOf (ascii "Qwen2Tokenizer")) 2 = .ok t ∧
      (∃ text v, t.toJson = .ok text ∧ parseJson text = .ok v) ∧
        ∃ text v, (reportOf t).toJson = .ok text ∧ parseJson text = .ok v) ∧
    ∃ t, loadTokenizer (filesOf (ascii "\\u0001")) 2 = .ok t ∧
      (∃ text, t.toJson = .ok text ∧ ¬ ∃ v, parseJson text = .ok v) ∧
        ∃ text, (reportOf t).toJson = .ok text ∧ ¬ ∃ v, parseJson text = .ok v := by
  have hloads : ∀ raw cls, (loadTokenizer (filesOf raw) 2).toOption.map
      (fun t => t.tokenizerClass ++ t.tokenizerModel) = some cls →
      ∃ t, loadTokenizer (filesOf raw) 2 = .ok t ∧ t.tokenizerClass ++ t.tokenizerModel = cls := by
    intro raw cls h
    cases hload : loadTokenizer (filesOf raw) 2 with
    | error e =>
      rw [hload] at h
      exact nomatch h
    | ok t =>
      rw [hload] at h
      exact ⟨t, rfl, Option.some.inj h⟩
  obtain ⟨t, ht, hclass⟩ := hloads (ascii "Qwen2Tokenizer") (ascii "Qwen2TokenizerBPE") (by decide +kernel)
  obtain ⟨t', ht', hclass'⟩ := hloads (ascii "\\u0001") (0x01 :: ascii "BPE") (by decide +kernel)
  have hwritable : t.Writable := by
    unfold QwenTokenizerMetadata.Writable
    rw [hclass]
    decide +kernel
  have hunwritable : ¬ t'.Writable := by
    unfold QwenTokenizerMetadata.Writable
    rw [hclass']
    decide +kernel
  have hnames : ∀ b ∈ ascii "m" ++ ascii "qwen3_moe", 0x20 ≤ b := by decide +kernel
  obtain ⟨-, -, -, htokenizer, hreport⟩ := writers_agree_iff [] (filesOf (ascii "Qwen2Tokenizer")) 2
  obtain ⟨-, -, -, htokenizer', hreport'⟩ := writers_agree_iff [] (filesOf (ascii "\\u0001")) 2
  refine ⟨⟨t, ht, ?_, ?_⟩, t', ht', ?_, ?_⟩
  · obtain ⟨text, htext, hread⟩ := htokenizer t ht
    obtain ⟨v, hv⟩ := hread.mpr hwritable
    exact ⟨text, v, htext, hv⟩
  · obtain ⟨text, htext, hread⟩ := hreport (reportOf t) ht
    obtain ⟨v, hv⟩ := hread.mpr ⟨hnames, hwritable⟩
    exact ⟨text, v, htext, hv⟩
  · obtain ⟨text, htext, hread⟩ := htokenizer' t' ht'
    exact ⟨text, htext, fun hv => hunwritable (hread.mp hv)⟩
  · obtain ⟨text, htext, hread⟩ := hreport' (reportOf t') ht'
    exact ⟨text, htext, fun hv => hunwritable (hread.mp hv).2⟩

/-- a string that comes out of the parser, and two writers lose -/
theorem control_character_lost : ∃ text s, parseJson text = .ok (.string s) ∧
    parseJson (quoted (escapeTokenizer s)) ≠ .ok (.string s) ∧
    parseJson (quoted (escapeReport s)) ≠ .ok (.string s) := by
  refine ⟨ascii "\"\\u0001\"", [0x01], rfl, ?_, ?_⟩
  · rintro ⟨⟩
  · rintro ⟨⟩

end HyperMoE.Importer.RealCheckpoint
