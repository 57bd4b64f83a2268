import ParcelCodec.Text.Hex
import ParcelCodec.Text.Unseen

/-!
# Quoted text

Two spellings of a text between double quotes.

* `quote` is the JSON literal: only the quote, the backslash and the characters below `U+0020`
  are escaped.
* `display` is for reading: every character without a picture of its own is shown by number.
-/

namespace ParcelCodec.Text

/-! ## §1. The JSON literal. -/

/-- One character inside a JSON literal. -/
def quoteChar (c : Char) : List Char :=
  match c with
  | '"' => ['\\', '"']
  | '\\' => ['\\', '\\']
  | '\n' => ['\\', 'n']
  | '\r' => ['\\', 'r']
  | '\t' => ['\\', 't']
  | _ =>
    if c.toNat = 8 then ['\\', 'b']
    else if c.toNat = 12 then ['\\', 'f']
    else if c.toNat < 32 then ['\\', 'u'] ++ Hex.padded 4 c.toNat
    else [c]

/-- A text as a JSON literal. -/
def quote (cs : List Char) : List Char :=
  '"' :: cs.flatMap quoteChar ++ ['"']

/-! ## §2. The readable literal. -/

/-- One character inside a readable literal. -/
def displayChar (c : Char) : List Char :=
  match c with
  | '"' => ['\\', '"']
  | '\\' => ['\\', '\\']
  | '\n' => ['\\', 'n']
  | '\r' => ['\\', 'r']
  | '\t' => ['\\', 't']
  | _ =>
    if c.toNat = 0 then ['\\', '0']
    else if isUnseen c then "\\u\x7b".toList ++ Hex.ofNat c.toNat ++ "\x7d".toList
    else [c]

/-- A text as a readable literal. -/
def display (cs : List Char) : List Char :=
  '"' :: cs.flatMap displayChar ++ ['"']

end ParcelCodec.Text

namespace ParcelCodec

/-- The JSON literal of a text. -/
def quoted (s : String) : String := .ofList (Text.quote s.toList)

/-- The readable literal of a text. -/
def displayed (s : String) : String := .ofList (Text.display s.toList)

end ParcelCodec
