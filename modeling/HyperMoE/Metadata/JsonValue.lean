import HyperMoE.Lib.Parsing

/-!
# JSON values and their parser

`JsonValue.cpp`: the recursive descent parser, one function for each of its functions, and the
accessors of the values.

* `JsonValue`                      a value; an object is a map, so its entries are in the order of
                                   their keys;
* `parseHexQuad` ... `parseValue`  the parser; the error texts carry the position;
* `parseJson`                      a whole text;
* `asBool` ... `require`           the accessors that the loaders use.

A loop has the number of bytes left as its fuel, and `parseValue` the number of levels it may still
descend: `parseValue` refuses before that runs out.
-/

namespace HyperMoE.Metadata

open Lib Lib.Fallible Lib.Parsing

structure MetadataError where
  what : String
  deriving DecidableEq, Repr

/-- `number` keeps its source text -/
inductive JsonValue where
  | null
  | bool (value : Bool)
  | number (text : Text)
  | string (value : Text)
  | array (items : List JsonValue)
  | object (entries : List (Text × JsonValue))

abbrev Code := Parser MetadataError

def fail {α : Type} (message : String) : Code α := do
  let s ← read
  throw (.thrown ⟨message ++ " at byte " ++ toString s.position⟩)

/-- `if (c) fail(message);` -/
def failIf (c : Prop) [Decidable c] (message : String) : Code Unit :=
  if c then fail message else pure ()

/-! ## bytes -/

def quote : UInt8 := 0x22
def backslash : UInt8 := 0x5c

/-- `std::isspace` in the C locale -/
def isSpace (b : UInt8) : Bool := b = 0x20 ∨ (0x09 ≤ b ∧ b ≤ 0x0d)

def isDigit (b : UInt8) : Bool := 0x30 ≤ b ∧ b ≤ 0x39

def skipWhitespace : Code Unit := skipWhile isSpace

def consume (expected : UInt8) : Code Bool := do
  skipWhitespace
  let s ← read
  if s.rest.head? = some expected then do
    advance
    return true
  else return false

/-! ## literals and strings -/

def parseLiteral (literal : Text) : Code Unit := do
  let s ← read
  failIf (s.rest.take literal.length ≠ literal) "invalid JSON literal"
  drop literal.length

def appendUtf8 (codePoint : Nat) : Text :=
  if codePoint ≤ 0x7f then [UInt8.ofNat codePoint]
  else if codePoint ≤ 0x7ff then
    [UInt8.ofNat (0xc0 ||| codePoint >>> 6), UInt8.ofNat (0x80 ||| codePoint &&& 0x3f)]
  else if codePoint ≤ 0xffff then
    [UInt8.ofNat (0xe0 ||| codePoint >>> 12), UInt8.ofNat (0x80 ||| codePoint >>> 6 &&& 0x3f),
      UInt8.ofNat (0x80 ||| codePoint &&& 0x3f)]
  else
    [UInt8.ofNat (0xf0 ||| codePoint >>> 18), UInt8.ofNat (0x80 ||| codePoint >>> 12 &&& 0x3f),
      UInt8.ofNat (0x80 ||| codePoint >>> 6 &&& 0x3f), UInt8.ofNat (0x80 ||| codePoint &&& 0x3f)]

/-- the value of a hexadecimal digit -/
def hexDigit (b : UInt8) : Option Nat :=
  if 0x30 ≤ b ∧ b ≤ 0x39 then some (b.toNat - 0x30)
  else if 0x61 ≤ b ∧ b ≤ 0x66 then some (b.toNat - 0x61 + 10)
  else if 0x41 ≤ b ∧ b ≤ 0x46 then some (b.toNat - 0x41 + 10)
  else none

/-- the rest of the loop of `parseHexQuad` -/
def hexLoop : Nat → Nat → Code Nat
  | 0, value => pure value
  | count + 1, value => do
    let character ← next
    match hexDigit character with
    | some digit => hexLoop count (value <<< 4 ||| digit)
    | none => fail "invalid Unicode escape"

def parseHexQuad : Code Nat := do
  let s ← read
  failIf (s.rest.length < 4) "truncated Unicode escape"
  hexLoop 4 0

def isHighSurrogate (codePoint : Nat) : Bool := 0xd800 ≤ codePoint ∧ codePoint ≤ 0xdbff

def isLowSurrogate (codePoint : Nat) : Bool := 0xdc00 ≤ codePoint ∧ codePoint ≤ 0xdfff

/-- what follows `\u` -/
def parseUnicode : Code Text := do
  let codePoint ← parseHexQuad
  if isHighSurrogate codePoint then do
    let s ← read
    failIf (s.rest.take 2 ≠ [backslash, 0x75]) "missing low Unicode surrogate"
    drop 2
    let low ← parseHexQuad
    failIf (isLowSurrogate low = false) "invalid low Unicode surrogate"
    return appendUtf8 (0x10000 + (codePoint - 0xd800) <<< 10 + (low - 0xdc00))
  else do
    failIf (isLowSurrogate codePoint = true) "unexpected low Unicode surrogate"
    return appendUtf8 codePoint

/-- the byte that a short escape stands for -/
def shortEscape (b : UInt8) : Option UInt8 :=
  if b = quote then some quote
  else if b = backslash then some backslash
  else if b = 0x2f then some 0x2f
  else if b = 0x62 then some 0x08
  else if b = 0x66 then some 0x0c
  else if b = 0x6e then some 0x0a
  else if b = 0x72 then some 0x0d
  else if b = 0x74 then some 0x09
  else none

/-- what follows a backslash -/
def parseEscape : Code Text := do
  let s ← read
  failIf (s.rest = []) "truncated string escape"
  let character ← next
  match shortEscape character with
  | some b => return [b]
  | none => if character = 0x75 then parseUnicode else fail "invalid string escape"

def stringLoop : Nat → Text → Code Text
  | 0, _ => throw .outOfFuel
  | fuel + 1, output => do
    let s ← read
    failIf (s.rest = []) "unterminated string"
    let character ← next
    if character = quote then return output
    else do
      failIf (character < 0x20) "control character in string"
      if character ≠ backslash then stringLoop fuel (output ++ [character])
      else do
        let decoded ← parseEscape
        stringLoop fuel (output ++ decoded)

def parseString : Code Text := do
  let opened ← consume quote
  failIf (opened = false) "expected string"
  let s ← read
  stringLoop (s.rest.length + 1) []

/-! ## numbers -/

/-- digits, at least one -/
def parseDigits (message : String) : Code Unit := do
  let start ← read
  skipWhile isDigit
  let s ← read
  failIf (s.position = start.position) message

/-- `if (position_ < text_.size() && p(text_[position_])) { ++position_; ... }` -/
def whenNext (p : UInt8 → Bool) (x : Code Unit) : Code Unit := do
  let s ← read
  if s.rest.head?.any p then do
    advance
    x
  else return

def parseInteger : Code Unit := do
  let s ← read
  failIf (s.rest = []) "truncated number"
  let first ← peek
  if first = 0x30 then advance
  else do
    failIf (first < 0x31 ∨ first > 0x39) "invalid number"
    skipWhile isDigit

def parseFraction : Code Unit :=
  whenNext (fun b => b = 0x2e) (parseDigits "invalid number fraction")

def parseExponent : Code Unit :=
  whenNext (fun b => b = 0x65 ∨ b = 0x45) do
    whenNext (fun b => b = 0x2b ∨ b = 0x2d) (pure ())
    parseDigits "invalid number exponent"

def parseNumber : Code Text := do
  let start ← read
  let first ← peek
  (if first = 0x2d then advance else pure ())
  parseInteger
  parseFraction
  parseExponent
  let s ← read
  return start.rest.take (s.position - start.position)

/-! ## arrays and objects -/

def arrayLoop (parseItem : Code JsonValue) : Nat → List JsonValue → Code (List JsonValue)
  | 0, _ => throw .outOfFuel
  | fuel + 1, array => do
    let item ← parseItem
    let closed ← consume 0x5d
    if closed then return array ++ [item]
    else do
      let more ← consume 0x2c
      failIf (more = false) "expected comma in array"
      arrayLoop parseItem fuel (array ++ [item])

def parseArray (parseItem : Code JsonValue) : Code (List JsonValue) := do
  let opened ← consume 0x5b
  failIf (opened = false) "expected array"
  let closed ← consume 0x5d
  if closed then return []
  else do
    let s ← read
    arrayLoop parseItem (s.rest.length + 1) []

/-- `std::less` of two strings: by their bytes -/
def keyLess : Text → Text → Bool
  | _, [] => false
  | [], _ :: _ => true
  | a :: as, b :: bs => if a = b then keyLess as bs else a < b

/-- `std::map::emplace`: the key in its place among the others, if it is new -/
def emplace (key : Text) (value : JsonValue) :
    List (Text × JsonValue) → Option (List (Text × JsonValue))
  | [] => some [(key, value)]
  | entry :: entries =>
    if keyLess key entry.1 = true then some ((key, value) :: entry :: entries)
    else if key = entry.1 then none
    else (emplace key value entries).map (entry :: ·)

def parseMember (parseItem : Code JsonValue) (object : List (Text × JsonValue)) :
    Code (List (Text × JsonValue)) := do
  skipWhitespace
  let s ← read
  failIf (s.rest.head? ≠ some quote) "expected object key"
  let key ← parseString
  let colon ← consume 0x3a
  failIf (colon = false) "expected colon after object key"
  let value ← parseItem
  match emplace key value object with
  | some object => return object
  | none => fail "duplicate object key"

def objectLoop (parseItem : Code JsonValue) :
    Nat → List (Text × JsonValue) → Code (List (Text × JsonValue))
  | 0, _ => throw .outOfFuel
  | fuel + 1, object => do
    let object ← parseMember parseItem object
    let closed ← consume 0x7d
    if closed then return object
    else do
      let more ← consume 0x2c
      failIf (more = false) "expected comma in object"
      objectLoop parseItem fuel object

def parseObject (parseItem : Code JsonValue) : Code (List (Text × JsonValue)) := do
  let opened ← consume 0x7b
  failIf (opened = false) "expected object"
  let closed ← consume 0x7d
  if closed then return []
  else do
    let s ← read
    objectLoop parseItem (s.rest.length + 1) []

/-! ## values -/

/-- `switch (text_[position_])` -/
def parseToken (parseItem : Code JsonValue) (character : UInt8) : Code JsonValue :=
  if character = 0x6e then do
    parseLiteral (ascii "null")
    return .null
  else if character = 0x74 then do
    parseLiteral (ascii "true")
    return .bool true
  else if character = 0x66 then do
    parseLiteral (ascii "false")
    return .bool false
  else if character = quote then do
    let value ← parseString
    return .string value
  else if character = 0x5b then do
    let items ← parseArray parseItem
    return .array items
  else if character = 0x7b then do
    let entries ← parseObject parseItem
    return .object entries
  else if character = 0x2d ∨ isDigit character = true then do
    let text ← parseNumber
    return .number text
  else fail "unexpected JSON token"

def parseValue : Nat → Nat → Code JsonValue
  | 0, _ => throw .outOfFuel
  | levels + 1, depth => do
    failIf (depth > 128) "JSON nesting limit exceeded"
    skipWhitespace
    let s ← read
    failIf (s.rest = []) "unexpected end of input"
    let character ← peek
    parseToken (parseValue levels (depth + 1)) character

def parse : Code JsonValue := do
  let result ← parseValue 130 0
  skipWhitespace
  let s ← read
  failIf (s.rest ≠ []) "unexpected trailing input"
  return result

def parseJson (text : Text) : Except (ParseError MetadataError) JsonValue :=
  (parse.exec ⟨0, text⟩).1

/-! ## accessors -/

/-- the bytes of a text as the characters of a message -/
def message (text : Text) : String := String.ofList (text.map fun b => Char.ofNat b.toNat)

/-- the exception of `requireType` -/
def wrongType {α : Type} (name : String) : Except MetadataError α := .error ⟨"JSON value is not " ++ name⟩

/-- `std::from_chars` of a whole text into an unsigned 64-bit integer -/
def fromChars (text : Text) : Option UInt64 :=
  let value := text.foldl (fun value b => value * 10 + (b.toNat - 0x30)) 0
  if text ≠ [] ∧ text.all isDigit = true ∧ value < 2 ^ 64 then some (UInt64.ofNat value) else none

namespace JsonValue

def isString : JsonValue → Bool
  | string _ => true
  | _ => false

def asBool : JsonValue → Except MetadataError Bool
  | string text =>
    if text = ascii "true" then .ok true
    else if text = ascii "false" then .ok false
    else wrongType "a boolean"
  | bool value => .ok value
  | _ => wrongType "a boolean"

def asUInt64 : JsonValue → Except MetadataError UInt64
  | string text => (fromChars text).elim (wrongType "an unsigned 64-bit integer") .ok
  | number text => (fromChars text).elim (wrongType "an unsigned 64-bit integer") .ok
  | _ => wrongType "an unsigned integer"

def asString : JsonValue → Except MetadataError Text
  | string value => .ok value
  | _ => wrongType "a string"

def asArray : JsonValue → Except MetadataError (List JsonValue)
  | array items => .ok items
  | _ => wrongType "an array"

def asObject : JsonValue → Except MetadataError (List (Text × JsonValue))
  | object entries => .ok entries
  | _ => wrongType "an object"

def find (key : String) : JsonValue → Option JsonValue
  | object entries => (entries.find? fun entry => entry.1 = ascii key).map Prod.snd
  | _ => none

def require (v : JsonValue) (key : String) : Except MetadataError JsonValue :=
  match v.asObject with
  | .ok _ => (v.find key).elim (.error ⟨"missing JSON field: " ++ key⟩) .ok
  | .error e => .error e

theorem asObject_eq {v : JsonValue} {entries : List (Text × JsonValue)}
    (h : v.asObject = .ok entries) : v = .object entries := by
  cases v <;> simp_all [asObject, wrongType]

end JsonValue

end HyperMoE.Metadata
