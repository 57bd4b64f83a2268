import ParcelCodec.Json
import ParcelCodec.Text.Hex

/-!
# Reading JSON

Strict JSON: no comments, no trailing commas, no text behind the document, no raw control
characters in strings.  A reader answers what it read and the rest of the text, or nothing.
-/

namespace ParcelCodec.Json.Reader

/-- The white space of JSON, which is not all the white space there is. -/
def isSpace (c : Char) : Bool := c == ' ' || c == '\t' || c == '\n' || c == '\r'

/-- The text behind any white space. -/
def skip (cs : List Char) : List Char := cs.dropWhile isSpace

/-! ## §1. Strings. -/

/-- A piece of a string literal. -/
inductive Piece where
  /-- A character that stands for itself or has a short escape. -/
  | char (c : Char)
  /-- A code unit, by its four digits. -/
  | unit (n : Nat)

/-- The character of a short escape. -/
def escape? : Char → Option Char
  | '"' => some '"'
  | '\\' => some '\\'
  | '/' => some '/'
  | 'b' => some (Char.ofNat 8)
  | 'f' => some (Char.ofNat 12)
  | 'n' => some '\n'
  | 'r' => some '\r'
  | 't' => some '\t'
  | _ => none

/-- The pieces up to the closing quote, and the rest behind it. -/
def pieces : List Char → Option (List Piece × List Char)
  | [] => none
  | '"' :: rest => some ([], rest)
  | '\\' :: 'u' :: a :: b :: c :: d :: rest => do
    let n ← Text.Hex.toNat? [a, b, c, d]
    let (more, rest') ← pieces rest
    return (.unit n :: more, rest')
  | '\\' :: e :: rest => do
    let c ← escape? e
    let (more, rest') ← pieces rest
    return (.char c :: more, rest')
  | c :: rest =>
    if c.toNat < 32 || c == '\\' then none
    else do
      let (more, rest') ← pieces rest
      return (.char c :: more, rest')

/-- The text that pieces spell; half a surrogate pair spells none. -/
def join : List Piece → Option (List Char)
  | [] => some []
  | .char c :: rest => (join rest).map (c :: ·)
  | .unit high :: .unit low :: rest =>
    if 0xD800 ≤ high && high < 0xDC00 then
      if 0xDC00 ≤ low && low < 0xE000 then
        (join rest).map (Char.ofNat (0x10000 + (high - 0xD800) * 0x400 + (low - 0xDC00)) :: ·)
      else none
    else if 0xDC00 ≤ high && high < 0xE000 then none
    else (join (.unit low :: rest)).map (Char.ofNat high :: ·)
  | .unit n :: rest =>
    if 0xD800 ≤ n && n < 0xE000 then none else (join rest).map (Char.ofNat n :: ·)

/-- A string behind its opening quote. -/
def string (cs : List Char) : Option (Option String × List Char) := do
  let (parts, rest) ← pieces cs
  return ((join parts).map .ofList, rest)

/-! ## §2. Numbers. -/

def isDigit (c : Char) : Bool := '0' ≤ c && c ≤ '9'

/-- At least one digit. -/
def digits (cs : List Char) : Option (List Char × List Char) :=
  match cs.takeWhile isDigit with
  | [] => none
  | ds => some (ds, cs.dropWhile isDigit)

/-- Digits without a leading zero. -/
def whole (cs : List Char) : Option (List Char × List Char) :=
  match cs with
  | '0' :: rest => some (['0'], rest)
  | _ => digits cs

/-- A fraction, if there is one. -/
def fraction (cs : List Char) : Option (List Char × List Char) :=
  match cs with
  | '.' :: rest => (digits rest).map fun (ds, rest') => ('.' :: ds, rest')
  | _ => some ([], cs)

/-- A sign, if there is one. -/
def sign (cs : List Char) : List Char × List Char :=
  match cs with
  | '+' :: rest => (['+'], rest)
  | '-' :: rest => (['-'], rest)
  | _ => ([], cs)

/-- An exponent, if there is one. -/
def exponent (cs : List Char) : Option (List Char × List Char) :=
  match cs with
  | c :: rest =>
    if c == 'e' || c == 'E' then
      let (mark, rest') := sign rest
      (digits rest').map fun (ds, rest'') => (c :: mark ++ ds, rest'')
    else some ([], cs)
  | [] => some ([], [])

/-- A number, by its literal. -/
def number (cs : List Char) : Option (Json × List Char) := do
  let (minus, rest) := match cs with
    | '-' :: rest => (['-'], rest)
    | _ => ([], cs)
  let (ds, rest) ← whole rest
  let (part, rest) ← fraction rest
  let (power, rest) ← exponent rest
  return (.num (.ofList (minus ++ ds ++ part ++ power)), rest)

/-! ## §3. Documents. -/

mutual

/-- A document that nests no deeper than `fuel` characters allow. -/
def value : (fuel : Nat) → List Char → Option (Json × List Char)
  | 0, _ => none
  | fuel + 1, cs =>
    match skip cs with
    | '"' :: rest => (string rest).map fun (s, rest') => (.str s, rest')
    | '[' :: rest =>
      match skip rest with
      | ']' :: rest' => some (.arr [], rest')
      | rest' => (items fuel rest').map fun (js, rest'') => (.arr js, rest'')
    | '\x7b' :: rest =>
      match skip rest with
      | '\x7d' :: rest' => some (.obj [], rest')
      | rest' => (fields fuel rest').map fun (fs, rest'') => (.obj fs, rest'')
    | 'n' :: 'u' :: 'l' :: 'l' :: rest => some (.null, rest)
    | 't' :: 'r' :: 'u' :: 'e' :: rest => some (.bool true, rest)
    | 'f' :: 'a' :: 'l' :: 's' :: 'e' :: rest => some (.bool false, rest)
    | rest => number rest

/-- The items of an array, up to the closing bracket. -/
def items : (fuel : Nat) → List Char → Option (List Json × List Char)
  | 0, _ => none
  | fuel + 1, cs => do
    let (first, rest) ← value fuel cs
    match skip rest with
    | ',' :: rest' =>
      let (more, rest'') ← items fuel rest'
      return (first :: more, rest'')
    | ']' :: rest' => return ([first], rest')
    | _ => none

/-- The members of an object, up to the closing brace. -/
def fields : (fuel : Nat) → List Char → Option (List (Option String × Json) × List Char)
  | 0, _ => none
  | fuel + 1, cs =>
    match skip cs with
    | '"' :: rest => do
      let (name, rest) ← string rest
      match skip rest with
      | ':' :: rest' =>
        let (first, rest) ← value fuel rest'
        match skip rest with
        | ',' :: rest' =>
          let (more, rest'') ← fields fuel rest'
          return ((name, first) :: more, rest'')
        | '\x7d' :: rest' => return ([(name, first)], rest')
        | _ => none
      | _ => none
    | _ => none

end

end ParcelCodec.Json.Reader

namespace ParcelCodec.Json

/-- The document that a text spells, if it spells one.  Each level of nesting and each item costs
a character, so the length of the text bounds both. -/
def parse? (text : String) : Option Json :=
  match Reader.value (text.length + 1) text.toList with
  | some (json, rest) => if (Reader.skip rest).isEmpty then some json else none
  | none => none

end ParcelCodec.Json
