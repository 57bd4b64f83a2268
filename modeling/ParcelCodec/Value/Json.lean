import ParcelCodec.Decimal.Layout
import ParcelCodec.Json
import ParcelCodec.Text.Hex
import ParcelCodec.Text.Utf16
import ParcelCodec.Value

/-!
# Values as JSON

A readable view of a value, which does not keep apart what JSON does not: the three kinds of
sequences, or the widths of integers.  An instance names its class under `@class`.  A map is an
object if all its keys are strings, and otherwise a list of pairs.

An integer of up to sixteen bytes is written in decimal, a longer one in hexadecimal.
-/

namespace ParcelCodec.Value

open Decimal (Format)

/-! ## §1. Scalars. -/

/-- The member that holds the class of an instance. -/
def classKey : String := "@class"

/-- An integer in decimal. -/
def decimal (n : Int) : String := .ofList (Decimal.intDigits n)

/-- An integer. -/
def integerJson (n : Int) : Json := .num (decimal n)

/-- A floating-point number; JSON has none for a NaN or an infinity. -/
def numberJson (r : Decimal.Reading) : Json :=
  match Decimal.Layout.json.finite? r with
  | some digits => .num (.ofList digits)
  | none => .null

/-- A four-byte floating-point number. -/
def floatJson (w : UInt32) : Json := numberJson (Decimal.binary32.read w.toNat).widen

/-- An eight-byte floating-point number. -/
def doubleJson (w : UInt64) : Json := numberJson (Decimal.binary64.read w.toNat)

/-- A UTF-16 code unit; half a surrogate pair is no text and is written as its number. -/
def unitJson (u : UInt16) : Json :=
  match Text.Utf16.decode [u] with
  | some text => .text (.ofList text)
  | none => integerJson u.toNat

/-- The number that bytes spell, most significant first. -/
def bigEndian (bytes : List UInt8) : Nat :=
  bytes.foldl (fun n b => n * 256 + b.toNat) 0

/-- The integer that bytes spell in two's complement, most significant first. -/
def twosComplement (bytes : List UInt8) : Int :=
  match bytes with
  | [] => 0
  | b :: _ =>
    if 128 ≤ b.toNat then (bigEndian bytes : Int) - Nat.pow 256 bytes.length else bigEndian bytes

/-- Bytes in hexadecimal. -/
def hexText (bytes : List UInt8) : String := .ofList (Text.Hex.ofBytes bytes)

/-- An integer of any length. -/
def bigIntegerText (bytes : List UInt8) : String :=
  if bytes.isEmpty || 16 < bytes.length then hexText bytes else decimal (twosComplement bytes)

/-- The text of a string. -/
def stringText? : Value → Option String
  | .string s => some s
  | _ => none

/-! ## §2. Values. -/

mutual

/-- A value as JSON. -/
def toJson : Value → Json
  | .null => .null
  | .bool b => .bool b
  | .byte n => integerJson n.toInt
  | .short n => integerJson n.toInt
  | .char u => unitJson u
  | .int n => integerJson n.toInt
  | .long n => integerJson n.toInt
  | .float w => floatJson w
  | .double w => doubleJson w
  | .string s => .text s
  | .enumConstant name => .text name
  | .bigInteger bytes => .text (bigIntegerText bytes)
  | .bigDecimal unscaled scale =>
    .sorted [("unscaled", .text (bigIntegerText unscaled)), ("scale", integerJson scale.toInt)]
  | .size width height =>
    .sorted [("width", integerJson width.toInt), ("height", integerJson height.toInt)]
  | .sizeF width height => .sorted [("width", floatJson width), ("height", floatJson height)]
  | .blob bytes => .text (hexText bytes)
  | .array items => .arr (itemsToJson items)
  | .list items => .arr (itemsToJson items)
  | .set items => .arr (itemsToJson items)
  | .map entries =>
    match entries.mapM fun e => stringText? e.1 with
    | some keys => .sorted (keys.zip (valuesToJson entries))
    | none => .arr (entriesToJson entries)
  | .sparseArray entries => .sorted (sparseToJson entries)
  | .sparseBooleanArray entries =>
    .sorted (entries.map fun e => (decimal e.1.toInt, .bool e.2))
  | .object className fields => .sorted ((classKey, .text className) :: fieldsToJson fields)
  | .singleton className => .sorted [(classKey, .text className)]

/-- The elements of a sequence. -/
def itemsToJson : List Value → List Json
  | [] => []
  | v :: rest => v.toJson :: itemsToJson rest

/-- The values of a map. -/
def valuesToJson : List (Value × Value) → List Json
  | [] => []
  | (_, v) :: rest => v.toJson :: valuesToJson rest

/-- The entries of a map, as pairs. -/
def entriesToJson : List (Value × Value) → List Json
  | [] => []
  | (k, v) :: rest => .arr [k.toJson, v.toJson] :: entriesToJson rest

/-- The entries of a sparse array, by their keys in decimal. -/
def sparseToJson : List (Int32 × Value) → List (String × Json)
  | [] => []
  | (k, v) :: rest => (decimal k.toInt, v.toJson) :: sparseToJson rest

/-- The fields of an instance. -/
def fieldsToJson : List (String × Value) → List (String × Json)
  | [] => []
  | (name, v) :: rest => (name, v.toJson) :: fieldsToJson rest

end

end ParcelCodec.Value
