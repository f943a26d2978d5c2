import HyperMoE.Importer.SafeTensors
import HyperMoE.Lib.Outcome
import HyperMoE.Metadata.Escapes
import Mathlib.Data.List.Sort

/-!
# The tokenizer of a Qwen checkpoint

`loadTokenizer` of `QwenCheckpointLoader.cpp`, and the document that it is written to.

* `TokenizerFiles`        the three files that are read;
* `loadTokenizer`         what is kept of them;
* `toJson`                the document;
* `parseJson_toJson_iff`  when the document can be read back.
-/

namespace HyperMoE.Importer.Qwen

open Lib Lib.Outcome Metadata

abbrev Load := Except ImportError

/-- an accessor of a JSON value -/
def getting {α : Type} (r : Except MetadataError α) : Load α :=
  r.mapError fun e => .metadata (.thrown e)

/-! ## the files -/

/-- the contents of the files, `none` where there is none -/
structure TokenizerFiles where
  tokenizer : Option Text
  tokenizerConfig : Option Text
  config : Option Text
  specialTokensMap : Bool

def maximumMetadataBytes : Nat := 64 * 1024 * 1024

def parseJsonFile : Option Text → Load JsonValue
  | none => throw (metadataError "cannot stat model manifest")
  | some contents => do
    throwIf (contents.length > maximumMetadataBytes)
      (metadataError "model manifest exceeds size limit")
    (parseJson contents).mapError .metadata

/-! ## the metadata -/

structure QwenTokenizerMetadata where
  tokenizerClass : Text := []
  tokenizerModel : Text := []
  declaredVocabularySize : Nat := 0
  vocabularyEntries : Nat := 0
  addedTokens : Nat := 0
  bosTokenIds : List UInt32 := []
  eosTokenIds : List UInt32 := []
  padTokenIds : List UInt32 := []
  hasChatTemplate : Bool := false
  hasSpecialTokensMap : Bool := false
  deriving DecidableEq

def QwenTokenizerMetadata.validate (t : QwenTokenizerMetadata) : Load Unit := do
  throwIf (t.declaredVocabularySize = 0 ∨ t.vocabularyEntries = 0 ∨
      t.vocabularyEntries > t.declaredVocabularySize)
    (.std (.invalid_argument "Qwen tokenizer metadata is inconsistent"))
  throwIf (∃ id ∈ t.bosTokenIds ++ t.eosTokenIds ++ t.padTokenIds,
      t.declaredVocabularySize ≤ id.toNat)
    (.std (.invalid_argument "Qwen tokenizer special token is invalid"))

def tokenId (vocabularySize : Nat) (token : JsonValue) : Load UInt32 := do
  let id ← getting token.asUInt64
  throwIf (id.toNat ≥ vocabularySize ∨ id > 0xffffffff)
    (metadataError "Qwen special token ID is outside the vocabulary")
  return id.toUInt32

/-- in ascending order, each once -/
def tokenIds (config : JsonValue) (name : String) (vocabularySize : Nat) : Load (List UInt32) :=
  match config.find name with
  | none | some .null => return []
  | some (.array tokens) => do
    let ids ← collect (tokenId vocabularySize) tokens
    return (ids.insertionSort (· ≤ ·)).dedup
  | some token => do
    let id ← tokenId vocabularySize token
    return [id]

/-- the number of entries, and the largest ID among them -/
def readVocabulary : JsonValue → Load (Nat × UInt64)
  | .object entries => do
    let ids ← collect (fun entry : Text × JsonValue => getting entry.2.asUInt64) entries
    return (entries.length, ids.foldl max 0)
  | .array items =>
    return (items.length, if items.length = 0 then 0 else UInt64.ofNat (items.length - 1))
  | _ => throw (metadataError "Qwen tokenizer vocabulary has an unsupported representation")

/-- the IDs of the tokens that were added -/
def readAdded : Option JsonValue → Load (List UInt64)
  | none => return []
  | some added => do
    let entries ← getting added.asArray
    collect (fun entry => getting (entry.require "id" >>= JsonValue.asUInt64)) entries

/-- a string that may be missing -/
def readName (v : JsonValue) (name : String) : Load Text :=
  match v.find name with
  | none => return []
  | some value => getting value.asString

def readTokenizer (files : TokenizerFiles) (expectedVocabularySize : Nat) :
    Load QwenTokenizerMetadata := do
  throwIf (files.tokenizer = none ∨ files.tokenizerConfig = none)
    (metadataError "Qwen checkpoint requires tokenizer.json and tokenizer_config.json")
  let tokenizer ← parseJsonFile files.tokenizer
  let tokenizerConfig ← parseJsonFile files.tokenizerConfig
  let modelConfig ← parseJsonFile files.config
  let model ← getting (tokenizer.require "model")
  let tokenizerModel ← readName model "type"
  let vocabulary ← getting (model.require "vocab")
  let (vocabularyEntries, vocabularyMaximum) ← readVocabulary vocabulary
  let added ← readAdded (tokenizer.find "added_tokens")
  let maximumId := added.foldl max vocabularyMaximum
  throwIf (vocabularyEntries = 0 ∨ maximumId.toNat ≥ expectedVocabularySize)
    (metadataError "Qwen tokenizer IDs disagree with model vocab_size")
  let tokenizerClass ← readName tokenizerConfig "tokenizer_class"
  let bosTokenIds ← tokenIds modelConfig "bos_token_id" expectedVocabularySize
  let eosTokenIds ← tokenIds modelConfig "eos_token_id" expectedVocabularySize
  let padTokenIds ← tokenIds modelConfig "pad_token_id" expectedVocabularySize
  return { tokenizerClass, tokenizerModel, vocabularyEntries, bosTokenIds, eosTokenIds, padTokenIds
           declaredVocabularySize := expectedVocabularySize
           addedTokens := added.length
           hasChatTemplate := (tokenizerConfig.find "chat_template").isSome
           hasSpecialTokensMap := files.specialTokensMap }

def loadTokenizer (files : TokenizerFiles) (expectedVocabularySize : Nat) :
    Load QwenTokenizerMetadata := do
  let result ← readTokenizer files expectedVocabularySize
  result.validate
  return result

theorem validate_of_load {files : TokenizerFiles} {n : Nat} {t : QwenTokenizerMetadata}
    (h : loadTokenizer files n = .ok t) : t.validate = .ok () := by
  unfold loadTokenizer at h
  obtain ⟨result, -, h⟩ := bind_eq_ok.mp h
  obtain ⟨u, hvalid, h⟩ := bind_eq_ok.mp h
  obtain rfl := pure_eq_ok.mp h
  exact hvalid

/-! ## the document -/

def writeIds (ids : List UInt32) : Text := array (ids.map fun id => decimal id.toNat)

def writeBool (b : Bool) : Text := if b then ascii "true" else ascii "false"

namespace QwenTokenizerMetadata

def fields (t : QwenTokenizerMetadata) : List (String × Text) :=
  [("schema", quoted (ascii "hypermoe.qwen-tokenizer-metadata.v1")),
   ("tokenizer_class", quoted (escapeTokenizer t.tokenizerClass)),
   ("tokenizer_model", quoted (escapeTokenizer t.tokenizerModel)),
   ("declared_vocabulary_size", decimal t.declaredVocabularySize),
   ("vocabulary_entries", decimal t.vocabularyEntries),
   ("added_tokens", decimal t.addedTokens),
   ("bos_token_ids", writeIds t.bosTokenIds),
   ("eos_token_ids", writeIds t.eosTokenIds),
   ("pad_token_ids", writeIds t.padTokenIds),
   ("has_chat_template", writeBool t.hasChatTemplate),
   ("has_special_tokens_map", writeBool t.hasSpecialTokensMap)]

def toJson (t : QwenTokenizerMetadata) : Load Text := do
  t.validate
  return document t.fields

/-- the strings have no control character but the three that the helper knows -/
def Writable (t : QwenTokenizerMetadata) : Prop :=
  ∀ b ∈ t.tokenizerClass ++ t.tokenizerModel, b < 0x20 → b ∈ [0x0a, 0x0d, 0x09]

theorem not_bare_tokenizer_iff (b : UInt8) :
    ¬ Bare tokenizerByte b ↔ (b < 0x20 → b ∈ [0x0a, 0x0d, 0x09]) := by
  rw [bare_tokenizer_iff, not_and, not_not]

theorem named_fields (t : QwenTokenizerMetadata) : Named (t.fields.map Prod.fst) := by
  show Named ["schema", "tokenizer_class", "tokenizer_model", "declared_vocabulary_size",
    "vocabulary_entries", "added_tokens", "bos_token_ids", "eos_token_ids", "pad_token_ids",
    "has_chat_template", "has_special_tokens_map"]
  decide +kernel

theorem isValue_writeIds (levels : Nat) (ids : List UInt32) :
    ∃ v, IsValue (levels + 1) (writeIds ids) v := by
  refine isValue_array fun raw hraw => ?_
  obtain ⟨id, -, rfl⟩ := List.mem_map.mp hraw
  exact ⟨_, .number (isNumber_decimal id.toNat)⟩

theorem isValue_writeBool (levels : Nat) (b : Bool) : ∃ v, IsValue levels (writeBool b) v := by
  cases b
  · exact ⟨_, .false⟩
  · exact ⟨_, .true⟩

theorem readable_fields (t : QwenTokenizerMetadata) (levels : Nat) :
    (∀ f ∈ t.fields, Readable (levels + 1) f.2) ∧
      ((∀ f ∈ t.fields, scan .outside f.2 ≠ none) ↔ t.Writable) := by
  have hname : Plain "hypermoe.qwen-tokenizer-metadata.v1" := by decide +kernel
  have hvalue : IsValue (levels + 1) _ _ := .string hname.isString
  have hschema := readable_of_isValue hvalue
  have hclass := escapes_tokenizer.readable (levels + 1) t.tokenizerClass
  have hmodel := escapes_tokenizer.readable (levels + 1) t.tokenizerModel
  have hnumber : ∀ n, Readable (levels + 1) (decimal n) ∧ scan .outside (decimal n) ≠ none :=
    fun n => readable_of_isValue (.number (isNumber_decimal n))
  have hids : ∀ ids, Readable (levels + 1) (writeIds ids) ∧ scan .outside (writeIds ids) ≠ none :=
    fun ids => readable_of_isValue (isValue_writeIds levels ids).choose_spec
  have hbool : ∀ b, Readable (levels + 1) (writeBool b) ∧ scan .outside (writeBool b) ≠ none :=
    fun b => readable_of_isValue (isValue_writeBool (levels + 1) b).choose_spec
  constructor
  · unfold fields
    simp only [List.forall_mem_cons, List.not_mem_nil, false_implies, implies_true, and_true]
    exact ⟨hschema.1, hclass.1, hmodel.1, (hnumber _).1, (hnumber _).1, (hnumber _).1, (hids _).1,
      (hids _).1, (hids _).1, (hbool _).1, (hbool _).1⟩
  · have hwritable : t.Writable ↔ (∀ b ∈ t.tokenizerClass, ¬ Bare tokenizerByte b) ∧
        ∀ b ∈ t.tokenizerModel, ¬ Bare tokenizerByte b := by
      simp only [not_bare_tokenizer_iff]
      exact List.forall_mem_append
    rw [hwritable, ← hclass.2, ← hmodel.2]
    unfold fields
    simp only [List.forall_mem_cons, List.not_mem_nil, false_implies, implies_true, and_true]
    constructor
    · rintro ⟨-, hclass', hmodel', -⟩
      exact ⟨hclass', hmodel'⟩
    · rintro ⟨hclass', hmodel'⟩
      exact ⟨hschema.2, hclass', hmodel', (hnumber _).2, (hnumber _).2, (hnumber _).2, (hids _).2,
        (hids _).2, (hids _).2, (hbool _).2, (hbool _).2⟩

/-- the document of a tokenizer can be read back exactly if its two names are writable -/
theorem parseJson_toJson_iff {t : QwenTokenizerMetadata} (h : t.validate = .ok ()) :
    ∃ text, t.toJson = .ok text ∧ ((∃ v, parseJson text = .ok v) ↔ t.Writable) := by
  have hjson : t.toJson = .ok (document t.fields) := bind_eq_ok.mpr ⟨(), h, rfl⟩
  obtain ⟨hread, hscan⟩ := t.readable_fields 126
  exact ⟨_, hjson, (parseJson_document_iff t.named_fields hread).trans hscan⟩

end QwenTokenizerMetadata

end HyperMoE.Importer.Qwen
