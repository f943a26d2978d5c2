import HyperMoE.Metadata.JsonValue

/-!
# The language of the parser

The grammar of RFC 8259, with what its texts denote.

* `IsNumber`, `IsString`              the tokens;
* `IsValue`, `IsItems`, `IsMembers`   values, with at most so many levels of values inside;
* `IsText`                            a JSON text.

White space is any run of the six space bytes, a string may contain every byte from 0x20 on other
than quote and backslash, and no object has two equal keys.
-/

namespace HyperMoE.Metadata

open Lib Lib.Fallible Lib.Parsing

/-! ## tokens -/

def IsWhitespace (raw : Text) : Prop := ∀ b ∈ raw, b ∈ [0x20, 0x09, 0x0a, 0x0b, 0x0c, 0x0d]

def IsDigits (raw : Text) : Prop := ∀ b ∈ raw, 0x30 ≤ b ∧ b ≤ 0x39

/-- `int = zero / ( digit1-9 *DIGIT )` -/
inductive IsInteger : Text → Prop where
  | zero : IsInteger [0x30]
  | nonzero {d : UInt8} {ds : Text} (hd : 0x31 ≤ d ∧ d ≤ 0x39) (hds : IsDigits ds) :
      IsInteger (d :: ds)

/-- `[ frac ]`, where `frac = decimal-point 1*DIGIT` -/
inductive IsFraction : Text → Prop where
  | none : IsFraction []
  | some {ds : Text} (hne : ds ≠ []) (hds : IsDigits ds) : IsFraction (0x2e :: ds)

/-- `[ exp ]`, where `exp = e [ minus / plus ] 1*DIGIT` -/
inductive IsExponent : Text → Prop where
  | none : IsExponent []
  | some {e : UInt8} {sign ds : Text} (he : e = 0x65 ∨ e = 0x45)
      (hsign : sign = [] ∨ sign = [0x2b] ∨ sign = [0x2d]) (hne : ds ≠ []) (hds : IsDigits ds) :
      IsExponent (e :: (sign ++ ds))

/-- `number = [ minus ] int [ frac ] [ exp ]` -/
inductive IsNumber : Text → Prop where
  | mk {minus int frac exp : Text} (hminus : minus = [] ∨ minus = [0x2d]) (hint : IsInteger int)
      (hfrac : IsFraction frac) (hexp : IsExponent exp) : IsNumber (minus ++ (int ++ (frac ++ exp)))

/-- `HEXDIG`, and its value -/
inductive IsHexDigit : UInt8 → Nat → Prop where
  | decimal {b : UInt8} (h : 0x30 ≤ b ∧ b ≤ 0x39) : IsHexDigit b (b.toNat - 0x30)
  | lower {b : UInt8} (h : 0x61 ≤ b ∧ b ≤ 0x66) : IsHexDigit b (b.toNat - 0x61 + 10)
  | upper {b : UInt8} (h : 0x41 ≤ b ∧ b ≤ 0x46) : IsHexDigit b (b.toNat - 0x41 + 10)

/-- `4HEXDIG`, and their value -/
inductive IsHexQuad : Text → Nat → Prop where
  | mk {a b c d : UInt8} {a' b' c' d' : Nat} (ha : IsHexDigit a a') (hb : IsHexDigit b b')
      (hc : IsHexDigit c c') (hd : IsHexDigit d d') :
      IsHexQuad [a, b, c, d] (a' * 16 ^ 3 + b' * 16 ^ 2 + c' * 16 + d')

/-- a code point is decoded to its UTF-8 bytes -/
def utf8 (codePoint : Nat) : Text := String.utf8EncodeChar (Char.ofNat codePoint)

/-- the escapes of one byte, and the bytes that they stand for -/
inductive IsShort : UInt8 → UInt8 → Prop where
  | quotationMark : IsShort 0x22 0x22
  | reverseSolidus : IsShort 0x5c 0x5c
  | solidus : IsShort 0x2f 0x2f
  | backspace : IsShort 0x62 0x08
  | formFeed : IsShort 0x66 0x0c
  | lineFeed : IsShort 0x6e 0x0a
  | carriageReturn : IsShort 0x72 0x0d
  | tab : IsShort 0x74 0x09

/-- what follows the backslash of an escape, and the bytes that it stands for -/
inductive IsEscape : Text → Text → Prop where
  | short {c b : UInt8} (hc : IsShort c b) : IsEscape [c] [b]
  | unicode {hex : Text} {u : Nat} (hu : IsHexQuad hex u) (hns : ¬ (0xd800 ≤ u ∧ u ≤ 0xdfff)) :
      IsEscape (0x75 :: hex) (utf8 u)
  | pair {hex hex' : Text} {u u' : Nat} (hu : IsHexQuad hex u) (hhigh : 0xd800 ≤ u ∧ u ≤ 0xdbff)
      (hu' : IsHexQuad hex' u') (hlow : 0xdc00 ≤ u' ∧ u' ≤ 0xdfff) :
      IsEscape (0x75 :: (hex ++ (backslash :: 0x75 :: hex')))
        (utf8 (0x10000 + (u - 0xd800) * 0x400 + (u' - 0xdc00)))

/-- `*char`, and the bytes that they stand for -/
inductive IsChars : Text → Text → Prop where
  | nil : IsChars [] []
  | unescaped {b : UInt8} {raw value : Text} (hb : 0x20 ≤ b) (hq : b ≠ quote) (hs : b ≠ backslash)
      (h : IsChars raw value) : IsChars (b :: raw) (b :: value)
  | escaped {escape bytes raw value : Text} (he : IsEscape escape bytes) (h : IsChars raw value) :
      IsChars (backslash :: (escape ++ raw)) (bytes ++ value)

/-- `string = quotation-mark *char quotation-mark` -/
def IsString (raw value : Text) : Prop :=
  ∃ chars, raw = quote :: (chars ++ [quote]) ∧ IsChars chars value

/-! ## values -/

/-- the entries of the map that has the members -/
def IsMap (members entries : List (Text × JsonValue)) : Prop :=
  entries.Pairwise (fun a b => keyLess a.1 b.1 = true) ∧ entries.Perm members

mutual

/-- a value, inside which there are at most `levels` levels of values in arrays and objects -/
inductive IsValue : Nat → Text → JsonValue → Prop where
  | null {levels : Nat} : IsValue levels (ascii "null") .null
  | true {levels : Nat} : IsValue levels (ascii "true") (.bool true)
  | false {levels : Nat} : IsValue levels (ascii "false") (.bool false)
  | number {levels : Nat} {raw : Text} (h : IsNumber raw) : IsValue levels raw (.number raw)
  | string {levels : Nat} {raw value : Text} (h : IsString raw value) :
      IsValue levels raw (.string value)
  | emptyArray {levels : Nat} {w : Text} (hw : IsWhitespace w) :
      IsValue levels (0x5b :: (w ++ [0x5d])) (.array [])
  | array {levels : Nat} {raw : Text} {items : List JsonValue} (h : IsItems levels raw items) :
      IsValue (levels + 1) (0x5b :: (raw ++ [0x5d])) (.array items)
  | emptyObject {levels : Nat} {w : Text} (hw : IsWhitespace w) :
      IsValue levels (0x7b :: (w ++ [0x7d])) (.object [])
  | object {levels : Nat} {raw : Text} {members entries : List (Text × JsonValue)}
      (h : IsMembers levels raw members) (hmap : IsMap members entries) :
      IsValue (levels + 1) (0x7b :: (raw ++ [0x7d])) (.object entries)

/-- a value and the white space before it -/
inductive IsElement : Nat → Text → JsonValue → Prop where
  | mk {levels : Nat} {w raw : Text} {v : JsonValue} (hw : IsWhitespace w)
      (h : IsValue levels raw v) : IsElement levels (w ++ raw) v

/-- `value *( value-separator value )` -/
inductive IsItems : Nat → Text → List JsonValue → Prop where
  | one {levels : Nat} {raw w : Text} {v : JsonValue} (h : IsElement levels raw v)
      (hw : IsWhitespace w) : IsItems levels (raw ++ w) [v]
  | more {levels : Nat} {raw w rest : Text} {v : JsonValue} {items : List JsonValue}
      (h : IsElement levels raw v) (hw : IsWhitespace w) (hs : IsItems levels rest items) :
      IsItems levels (raw ++ (w ++ 0x2c :: rest)) (v :: items)

/-- `member = string name-separator value`, and the white space before it -/
inductive IsMember : Nat → Text → Text × JsonValue → Prop where
  | mk {levels : Nat} {w name w' raw key : Text} {v : JsonValue} (hw : IsWhitespace w)
      (hname : IsString name key) (hw' : IsWhitespace w') (h : IsElement levels raw v) :
      IsMember levels (w ++ (name ++ (w' ++ 0x3a :: raw))) (key, v)

/-- `member *( value-separator member )` -/
inductive IsMembers : Nat → Text → List (Text × JsonValue) → Prop where
  | one {levels : Nat} {raw w : Text} {m : Text × JsonValue} (h : IsMember levels raw m)
      (hw : IsWhitespace w) : IsMembers levels (raw ++ w) [m]
  | more {levels : Nat} {raw w rest : Text} {m : Text × JsonValue}
      {members : List (Text × JsonValue)} (h : IsMember levels raw m) (hw : IsWhitespace w)
      (hs : IsMembers levels rest members) :
      IsMembers levels (raw ++ (w ++ 0x2c :: rest)) (m :: members)

end

/-- `JSON-text = ws value ws`, with no value inside more than 128 arrays and objects -/
def IsText (text : Text) (v : JsonValue) : Prop :=
  ∃ raw w, text = raw ++ w ∧ IsElement 128 raw v ∧ IsWhitespace w

end HyperMoE.Metadata
