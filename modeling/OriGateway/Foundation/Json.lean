import OriGateway.Foundation.Utf8

/-! # JSON texts

JSON as a byte-oriented decoder reads it. **`Json.parse`** keeps strings and numbers **raw**: a
string is the bytes between its quotes with the escapes unread, a number is its literal. What a
reader makes of them is a second step (`unquote`, `parseInt`), so the two places where decoders
disagree with the text, repaired strings and folded member names, stay visible.
**`Json.decodeStruct`** reads an object into a record: a member is matched to a field exactly or by
case folding, and the last match wins. -/

namespace Foundation

/-- A JSON value, its strings and numbers raw. -/
inductive Json where
  | null : Json
  | bool : Bool → Json
  | num : Bytes → Json
  | str : Bytes → Json
  | arr : List Json → Json
  /-- An object, its members in the order written; a name is raw, as a string is. -/
  | obj : List (Bytes × Json) → Json

namespace Json

/-! ## Scanning -/

def isSpace (b : UInt8) : Bool := b == 32 || b == 9 || b == 10 || b == 13

def skipSpace (text : Bytes) : Bytes := text.dropWhile isSpace

/-- The value of a hexadecimal digit. -/
def hexValue (b : UInt8) : Option Nat :=
  let n := b.toNat
  if 48 ≤ n ∧ n ≤ 57 then some (n - 48)
  else if 97 ≤ n ∧ n ≤ 102 then some (n - 87)
  else if 65 ≤ n ∧ n ≤ 70 then some (n - 55)
  else none

/-- The value of four. -/
def hexUnit (p q r s : UInt8) : Option Nat :=
  match hexValue p, hexValue q, hexValue r, hexValue s with
  | some a, some b, some c, some d => some (a * 4096 + b * 256 + c * 16 + d)
  | _, _, _, _ => none

def isSimpleEscape (b : UInt8) : Bool :=
  b == 34 || b == 92 || b == 47 || b == 98 || b == 102 || b == 110 || b == 114 || b == 116

/-- Read a raw string up to its closing quote: the bytes before it and the text after it. -/
def scanString : Bytes → Option (Bytes × Bytes)
  | [] => none
  | 34 :: rest => some ([], rest)
  | 92 :: 117 :: p :: q :: r :: s :: rest =>
    if (hexUnit p q r s).isSome then
      (scanString rest).map fun t => (92 :: 117 :: p :: q :: r :: s :: t.1, t.2)
    else none
  | 92 :: b :: rest =>
    if isSimpleEscape b then (scanString rest).map fun t => (92 :: b :: t.1, t.2) else none
  | b :: rest =>
    if b == 92 || decide (b.toNat < 32) then none
    else (scanString rest).map fun t => (b :: t.1, t.2)

def spanDigits (text : Bytes) : Bytes × Bytes := (text.takeWhile isDigit, text.dropWhile isDigit)

/-- The integer part of a number: `0`, or digits that do not start with `0`. -/
def scanIntPart : Bytes → Option (Bytes × Bytes)
  | 48 :: rest => some ([48], rest)
  | b :: rest =>
    if isDigit b then
      let (ds, rest) := spanDigits rest
      some (b :: ds, rest)
    else none
  | [] => none

def scanFraction : Bytes → Option (Bytes × Bytes)
  | 46 :: rest =>
    let (ds, rest) := spanDigits rest
    if ds = [] then none else some (46 :: ds, rest)
  | rest => some ([], rest)

def scanExponentDigits (lead rest : Bytes) : Option (Bytes × Bytes) :=
  let (ds, rest) := spanDigits rest
  if ds = [] then none else some (lead ++ ds, rest)

/-- Scan an exponent, if there is one. -/
def scanExponent : Bytes → Option (Bytes × Bytes)
  | e :: rest =>
    if e == 101 || e == 69 then
      match rest with
      | s :: rest' =>
        if s == 43 || s == 45 then scanExponentDigits [e, s] rest'
        else scanExponentDigits [e] rest
      | [] => none
    else some ([], e :: rest)
  | [] => some ([], [])

def scanSign : Bytes → Bytes × Bytes
  | 45 :: rest => ([45], rest)
  | text => ([], text)

/-- Scan a number. -/
def scanNumber (text : Bytes) : Option (Bytes × Bytes) :=
  match scanIntPart (scanSign text).2 with
  | none => none
  | some (int, rest) =>
    match scanFraction rest with
    | none => none
    | some (frac, rest) =>
      (scanExponent rest).map fun t => ((scanSign text).1 ++ int ++ frac ++ t.1, t.2)

/-! ## Parsing -/

mutual

/-- Read one value, with a bound on the recursion and one on the nesting that remains. -/
def parseValue : Nat → Nat → Bytes → Option (Json × Bytes)
  | 0, _, _ => none
  | fuel + 1, depth, text =>
    match skipSpace text with
    | 110 :: 117 :: 108 :: 108 :: rest => some (.null, rest)
    | 116 :: 114 :: 117 :: 101 :: rest => some (.bool true, rest)
    | 102 :: 97 :: 108 :: 115 :: 101 :: rest => some (.bool false, rest)
    | 34 :: rest => (scanString rest).map fun t => (.str t.1, t.2)
    | 91 :: rest =>
      match depth with
      | 0 => none
      | depth + 1 =>
        match skipSpace rest with
        | 93 :: rest => some (.arr [], rest)
        | rest => (parseItems fuel depth rest).map fun t => (.arr t.1, t.2)
    | 123 :: rest =>
      match depth with
      | 0 => none
      | depth + 1 =>
        match skipSpace rest with
        | 125 :: rest => some (.obj [], rest)
        | rest => (parseMembers fuel depth rest).map fun t => (.obj t.1, t.2)
    | text => (scanNumber text).map fun t => (.num t.1, t.2)

/-- Read the items of an array, at the first of them, to its closing bracket. -/
def parseItems : Nat → Nat → Bytes → Option (List Json × Bytes)
  | 0, _, _ => none
  | fuel + 1, depth, text =>
    match parseValue fuel depth text with
    | none => none
    | some (v, rest) =>
      match skipSpace rest with
      | 44 :: rest => (parseItems fuel depth rest).map fun t => (v :: t.1, t.2)
      | 93 :: rest => some ([v], rest)
      | _ => none

/-- Read the members of an object, at the first of them, to its closing brace. -/
def parseMembers : Nat → Nat → Bytes → Option (List (Bytes × Json) × Bytes)
  | 0, _, _ => none
  | fuel + 1, depth, text =>
    match skipSpace text with
    | 34 :: rest =>
      match scanString rest with
      | none => none
      | some (name, rest) =>
        match skipSpace rest with
        | 58 :: rest =>
          match parseValue fuel depth rest with
          | none => none
          | some (v, rest) =>
            match skipSpace rest with
            | 44 :: rest =>
              (parseMembers fuel depth rest).map fun t => ((name, v) :: t.1, t.2)
            | 125 :: rest => some ([(name, v)], rest)
            | _ => none
        | _ => none
    | _ => none

end

def maxNestingDepth : Nat := 10000

def parse (text : Bytes) : Option Json :=
  match parseValue (2 * text.length + 2) maxNestingDepth text with
  | some (v, rest) => if skipSpace rest = [] then some v else none
  | none => none

/-- The first value of a text, as a stream decoder reads it: what follows is not looked at. -/
def decodeFirst (text : Bytes) : Option Json :=
  (parseValue (2 * text.length + 2) maxNestingDepth text).map Prod.fst

/-! ## Reading strings -/

def simpleEscape (b : UInt8) : UInt8 :=
  if b = 98 then 8 else if b = 102 then 12 else if b = 110 then 10
  else if b = 114 then 13 else if b = 116 then 9 else b

def isSurrogate (u : Nat) : Bool := decide (0xD800 ≤ u) && decide (u ≤ 0xDFFF)

/-- The scalar value of a surrogate pair, when the two units are one. -/
def surrogatePair (high low : Nat) : Option Nat :=
  if 0xD800 ≤ high ∧ high ≤ 0xDBFF ∧ 0xDC00 ≤ low ∧ low ≤ 0xDFFF then
    some ((high - 0xD800) * 1024 + (low - 0xDC00) + 0x10000)
  else none

/-- The scalar value of a `\u` escape whose unit is `u`, given the text after it, with the number of
further bytes it consumes: a high surrogate takes the low one that follows, and a surrogate that is
not half of a pair is replaced. -/
def unitRune (u : Nat) (after : Bytes) : Nat × Nat :=
  if isSurrogate u then
    match after with
    | 92 :: 117 :: p :: q :: r :: s :: _ =>
      match (hexUnit p q r s).bind (surrogatePair u) with
      | some rune => (rune, 6)
      | none => (Utf8.replacement, 0)
    | _ => (Utf8.replacement, 0)
  else (u, 0)

/-- The string a raw string stands for. The counter is the number of bytes of the last escape or
sequence still to pass over. -/
def unquoteFrom : Nat → Bytes → Bytes
  | _, [] => []
  | skip + 1, _ :: rest => unquoteFrom skip rest
  | 0, b :: rest =>
    if b = 92 then
      match rest with
      | 117 :: p :: q :: r :: s :: after =>
        let rune := unitRune ((hexUnit p q r s).getD Utf8.replacement) after
        Utf8.encodeRune rune.1 ++ unquoteFrom (5 + rune.2) rest
      | c :: _ => simpleEscape c :: unquoteFrom 1 rest
      | [] => []
    else
      match Utf8.decodeRune b rest with
      | some (rune, n) => Utf8.encodeRune rune ++ unquoteFrom n rest
      | none => Utf8.encodeRune Utf8.replacement ++ unquoteFrom 0 rest

def unquote (raw : Bytes) : Bytes := unquoteFrom 0 raw

/-! ## Reading values into fields

Each function reads a value into a field that already holds something, as a decoder does: `null`
leaves a field as it is, or empties one that can be absent. `none` is a type error. -/

def readInt (old : Int) : Json → Option Int
  | .null => some old
  | .num lit => parseInt lit
  | _ => none

def readIntPtr : Json → Option (Option Int)
  | .null => some none
  | .num lit => (parseInt lit).map some
  | _ => none

def readInt64 (old : Int) (v : Json) : Option Int :=
  (readInt old v).filter fun z => decide (-(2 ^ 63) ≤ z ∧ z < 2 ^ 63)

def readInt64Ptr (v : Json) : Option (Option Int) :=
  (readIntPtr v).filter fun z? => z?.all fun z => decide (-(2 ^ 63) ≤ z ∧ z < 2 ^ 63)

def readBool (old : Bool) : Json → Option Bool
  | .null => some old
  | .bool b => some b
  | _ => none

def readString (old : Bytes) : Json → Option Bytes
  | .null => some old
  | .str raw => some (unquote raw)
  | _ => none

def readByte (v : Json) : Option UInt8 :=
  match readInt 0 v with
  | some z => if 0 ≤ z ∧ z < 256 then some (UInt8.ofNat z.toNat) else none
  | none => none

/-- Read a byte-string field: Base64 text, or an array of numbers. -/
def readBytes : Json → Option Bytes
  | .null => some []
  | .str raw => base64Decode (unquote raw)
  | .arr items => items.mapM readByte
  | _ => none

def readStrings : Json → Option (List Bytes)
  | .null => some []
  | .arr items => items.mapM (readString [])
  | _ => none

/-! ## Reading objects into records -/

/-- A scalar value folded to the lower-case ASCII letter it matches, if any. Besides the two cases
of a letter only `U+017F` and `U+212A` fold to one. -/
def foldRune (r : Nat) : Nat :=
  if 65 ≤ r ∧ r ≤ 90 then r + 32 else if r = 0x17F then 115 else if r = 0x212A then 107 else r

/-- A name folded rune by rune, an ill-formed byte read as the replacement character. -/
def foldName (name : Bytes) : List Nat :=
  (Utf8.runes name).map fun r => foldRune (r.getD Utf8.replacement)

/-- The index of the field a member name is read into: the field of that very name, else the first
that differs from it by case only. -/
def matchField (tags : List Bytes) (name : Bytes) : Option Nat :=
  (tags.findIdx? (· == name)).or (tags.findIdx? fun tag => foldName tag == foldName name)

/-- Read members in order into a record. `store i v r` reads the value `v` into field `i`; a member
that matches no field is passed over, or refused when `strict`. -/
def decodeMembers {R : Type} (strict : Bool) (tags : List Bytes)
    (store : Nat → Json → R → Option R) : List (Bytes × Json) → R → Option R
  | [], r => some r
  | (name, v) :: rest, r =>
    match matchField tags (unquote name) with
    | none => if strict then none else decodeMembers strict tags store rest r
    | some i => (store i v r).bind (decodeMembers strict tags store rest)

/-- Decode an object, or keep the zero value on `null`. -/
def decodeStruct {R : Type} (strict : Bool) (tags : List Bytes) (store : Nat → Json → R → Option R)
    (zero : R) : Json → Option R
  | .null => some zero
  | .obj members => decodeMembers strict tags store members zero
  | _ => none

/-- Parse and decode a text. -/
def decodeRecord {R : Type} (strict : Bool) (tags : List Bytes) (store : Nat → Json → R → Option R)
    (zero : R) (text : Bytes) : Option R :=
  (parse text).bind (decodeStruct strict tags store zero)

/-! ## Writing -/

/-- The raw form of an ASCII byte in a string, HTML-sensitive characters escaped. -/
def escapeByte (b : UInt8) : Bytes :=
  if b = 34 ∨ b = 92 then [92, b]
  else if b = 8 then [92, 98] else if b = 12 then [92, 102] else if b = 10 then [92, 110]
  else if b = 13 then [92, 114] else if b = 9 then [92, 116]
  else if b.toNat < 32 ∨ b = 60 ∨ b = 62 ∨ b = 38 then
    [92, 117, 48, 48, hexDigit (b.toNat / 16), hexDigit (b.toNat % 16)]
  else [b]

/-- The raw form of a string. The counter is the number of bytes of the last sequence still to pass
over, and the flag whether they are copied. -/
def escapeFrom : Nat → Bool → Bytes → Bytes
  | _, _, [] => []
  | skip + 1, keep, b :: rest =>
    if keep then b :: escapeFrom skip keep rest else escapeFrom skip keep rest
  | 0, _, b :: rest =>
    if b.toNat < 0x80 then escapeByte b ++ escapeFrom 0 true rest
    else
      match Utf8.decodeRune b rest with
      | some (rune, n) =>
        -- Of the well-formed sequences only the two line separators are escaped.
        if rune = 0x2028 ∨ rune = 0x2029 then
          [92, 117, 50, 48, 50, hexDigit (rune % 16)] ++ escapeFrom n false rest
        else b :: escapeFrom n true rest
      | none => [92, 117, 102, 102, 102, 100] ++ escapeFrom 0 true rest

def ofString (s : Bytes) : Json := .str (escapeFrom 0 true s)

def ofInt (z : Int) : Json := .num (formatInt z)

/-- The object of a record's fields, in their order; a shorter list of values leaves the last fields
out. -/
def ofFields (tags : List Bytes) (values : List Json) : Json := .obj (tags.zip values)

mutual

/-- The text of a value. -/
def render : Json → Bytes
  | .null => [110, 117, 108, 108]
  | .bool true => [116, 114, 117, 101]
  | .bool false => [102, 97, 108, 115, 101]
  | .num lit => lit
  | .str raw => 34 :: raw ++ [34]
  | .arr [] => [91, 93]
  | .arr (v :: vs) => 91 :: render v ++ renderItems vs
  | .obj [] => [123, 125]
  | .obj ((name, v) :: ms) => 123 :: 34 :: name ++ 34 :: 58 :: render v ++ renderMembers ms

def renderItems : List Json → Bytes
  | [] => [93]
  | v :: vs => 44 :: render v ++ renderItems vs

def renderMembers : List (Bytes × Json) → Bytes
  | [] => [125]
  | (name, v) :: ms => 44 :: 34 :: name ++ 34 :: 58 :: render v ++ renderMembers ms

end

end Json

end Foundation
