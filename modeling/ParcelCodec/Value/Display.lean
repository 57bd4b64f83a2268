import ParcelCodec.Value
import ParcelCodec.Decimal.Layout
import ParcelCodec.Text.Quoted

/-!
# Values as text

The one-line form of a value that error messages quote.  The suffix of a number tells its width
(`1b`, `1s`, `1L`, `1f`), and the word before a bracket tells the kind of container.
-/

namespace ParcelCodec.Value

open Decimal

/-- A four-byte number, always positional. -/
def floatText (word : UInt32) : String := Layout.plain.text (binary32.read word.toNat)

/-- An eight-byte number, with an exponent if it is very large or very small. -/
def doubleText (word : UInt64) : String := Layout.scientific.text (binary64.read word.toNat)

/-- Items between an opening and a closing text, separated by commas. -/
def enclosed (opening : String) (items : List String) (closing : String) : String :=
  opening ++ ", ".intercalate items ++ closing

/-- The bytes of an integer, in decimal. -/
def bytesText (bytes : List UInt8) : String :=
  enclosed "[" (bytes.map fun b => toString b.toNat) "]"

mutual

/-- The one-line form of a value. -/
def display : Value → String
  | .null => "null"
  | .bool b => if b then "true" else "false"
  | .byte n => toString n.toInt ++ "b"
  | .short n => toString n.toInt ++ "s"
  | .char u => "'\\u\x7b" ++ .ofList (Text.Hex.atLeast 4 u.toNat) ++ "\x7d'"
  | .int n => toString n.toInt
  | .long n => toString n.toInt ++ "L"
  | .float w => floatText w ++ "f"
  | .double w => doubleText w
  | .string s => displayed s
  | .enumConstant name => "::" ++ name
  | .bigInteger bytes => "BigInteger(" ++ bytesText bytes ++ ")"
  | .bigDecimal bytes scale =>
    "BigDecimal(" ++ bytesText bytes ++ ", " ++ toString scale.toInt ++ ")"
  | .size w h => toString w.toInt ++ "x" ++ toString h.toInt
  | .sizeF w h => floatText w ++ "x" ++ floatText h ++ "f"
  | .blob bytes => "Blob(" ++ toString bytes.length ++ " bytes)"
  | .array items => enclosed "array[" (displayItems items) "]"
  | .list items => enclosed "[" (displayItems items) "]"
  | .set items => enclosed "set[" (displayItems items) "]"
  | .map entries => enclosed "\x7b" (displayEntries entries) "\x7d"
  | .sparseArray entries => enclosed "sparse[" (displaySparse entries) "]"
  | .sparseBooleanArray entries =>
    enclosed "sparse["
      (entries.map fun e =>
        "(" ++ toString e.1.toInt ++ ", " ++ (if e.2 then "true" else "false") ++ ")") "]"
  | .object className fields => enclosed (className ++ " \x7b") (displayFields fields) "\x7d"
  | .singleton className => className ++ ".INSTANCE"

/-- The one-line forms of a sequence. -/
def displayItems : List Value → List String
  | [] => []
  | v :: rest => v.display :: displayItems rest

/-- The entries of a map, as `key: value`. -/
def displayEntries : List (Value × Value) → List String
  | [] => []
  | (k, v) :: rest => (k.display ++ ": " ++ v.display) :: displayEntries rest

/-- The entries of a sparse array, as `(key, value)`. -/
def displaySparse : List (Int32 × Value) → List String
  | [] => []
  | (k, v) :: rest => ("(" ++ toString k.toInt ++ ", " ++ v.display ++ ")") :: displaySparse rest

/-- The fields of an instance, as `name: value`. -/
def displayFields : List (String × Value) → List String
  | [] => []
  | (k, v) :: rest => (k ++ ": " ++ v.display) :: displayFields rest

end

end ParcelCodec.Value
