import ParcelCodec.Wire.Op
import ParcelCodec.Wire.Tagged

/-!
# Layouts of the buffer operations

`Op.read` and `Op.write` are the two sides of each operation's layout.  A write checks the shape
of its value before it appends anything; only a tagged value is checked while it is written.

An instance of a class has no layout here: both polymorphic operations refuse one, and a machine
that knows the companions supplies it.
-/

namespace ParcelCodec.Wire.Op

/-! ## §1. Reading. -/

/-- A content that may be absent, with null for absence. -/
def orNull (wrap : α → Value) (r : Read (Option α)) : Read Value := do
  return ((← r).map wrap).getD .null

/-- A counted run of scalar slots, or null. -/
def items (wrap : α → Value) (element : Read α) : Read Value :=
  orNull (fun values => .array (values.map wrap)) (Read.array element)

/-- One value laid out as the operation says. -/
def read : Op → Read Value
  | .boolean => do return .bool (← Read.bool)
  | .byte => do return .byte (← Read.byte)
  | .short => do return .short (← Read.short)
  | .char => do return .char (← Read.char)
  | .int => do return .int (← Read.int)
  | .long => do return .long (← Read.long)
  | .float => do return .float (← Read.word)
  | .double => do return .double (← Read.doubleWord)
  | .string => orNull .string Read.string
  | .charSequence => do
    if (← Read.int) = 1 then orNull .string Read.string else Step.fail .malformed
  | .booleanArray => items .bool Read.bool
  | .byteArray => orNull (fun bytes => .array (Read.byteItems bytes)) Read.byteArray
  | .charArray => items .char Read.char
  | .shortArray => items .short Read.short
  | .intArray => items .int Read.int
  | .longArray => items .long Read.long
  | .floatArray => items .float Read.word
  | .doubleArray => items .double Read.doubleWord
  | .bigInteger => orNull .bigInteger Read.byteArray
  | .bigDecimal => do
    match ← Read.byteArray with
    | some unscaled => return .bigDecimal unscaled (← Read.int)
    | none => return .null
  | .size => do
    let width ← Read.int
    let height ← Read.int
    return .size width height
  | .sizeF => do
    let width ← Read.word
    let height ← Read.word
    return .sizeF width height
  | .sparseBooleanArray =>
    Read.counted .malformed (Read.pair Read.int Read.bool) .sparseBooleanArray
  | .bundle | .persistableBundle | .strongBinder | .serializable => orNull .blob Read.byteArray
  | .parcelable => Step.fail .malformed
  | .value => Read.plainTagged

/-! ## §2. Writing. -/

/-- An array whose items all have the one scalar shape. -/
def scalars? (pick : Value → Option α) (items : List Value) : Option (List α) :=
  items.mapM pick

/-- The written form of an array of scalars, if every item is one. -/
def arrayBytes? (pick : Value → Option α) (element : α → List UInt8) (items : List Value) :
    Option (List UInt8) :=
  (scalars? pick items).map (Slot.array element)

/-- The written form of a value that is not tagged, if the operation can carry it. -/
def bytes? : Op → Value → Option (List UInt8)
  | .boolean, .bool b => some (Slot.bool b)
  | .byte, .byte n => some (Slot.byte n)
  | .short, .short n => some (Slot.short n)
  | .char, .char u => some (Slot.char u)
  | .int, .int n => some (Slot.int n)
  | .long, .long n => some (Slot.long n)
  | .float, .float w => some (Slot.word w)
  | .double, .double w => some (Slot.doubleWord w)
  | .string, .string s => some (Slot.text s)
  | .charSequence, .string s => some (Slot.int 1 ++ Slot.text s)
  | .string, .null | .byteArray, .null | .bigInteger, .null | .bundle, .null
  | .persistableBundle, .null | .strongBinder, .null | .serializable, .null
  | .bigDecimal, .null | .booleanArray, .null | .charArray, .null | .shortArray, .null
  | .intArray, .null | .longArray, .null | .floatArray, .null | .doubleArray, .null
  | .sparseBooleanArray, .null => some Slot.absent
  | .booleanArray, .array items =>
    arrayBytes? (fun | .bool b => some b | _ => none) Slot.bool items
  | .byteArray, .array items => (Slot.bytesOfItems? items).map Slot.bytes
  | .charArray, .array items =>
    arrayBytes? (fun | .char u => some u | _ => none) Slot.char items
  | .shortArray, .array items =>
    arrayBytes? (fun | .short n => some n | _ => none) Slot.short items
  | .intArray, .array items =>
    arrayBytes? (fun | .int n => some n | _ => none) Slot.int items
  | .longArray, .array items =>
    arrayBytes? (fun | .long n => some n | _ => none) Slot.long items
  | .floatArray, .array items =>
    arrayBytes? (fun | .float w => some w | _ => none) Slot.word items
  | .doubleArray, .array items =>
    arrayBytes? (fun | .double w => some w | _ => none) Slot.doubleWord items
  | .bigInteger, .bigInteger bytes => some (Slot.bytes bytes)
  | .bigDecimal, .bigDecimal unscaled scale => some (Slot.bytes unscaled ++ Slot.int scale)
  | .size, .size width height => some (Slot.int width ++ Slot.int height)
  | .sizeF, .sizeF width height => some (Slot.word width ++ Slot.word height)
  | .sparseBooleanArray, .sparseBooleanArray entries =>
    some (Slot.array (fun e => Slot.int e.1 ++ Slot.bool e.2) entries)
  | .bundle, .blob bytes | .persistableBundle, .blob bytes | .strongBinder, .blob bytes
  | .serializable, .blob bytes => some (Slot.bytes bytes)
  | _, _ => none

/-- Writes one value as the operation says. -/
def write (op : Op) (value : Value) : Emission Malformed :=
  match op with
  | .value => Slot.plainTagged value
  | op =>
    match op.bytes? value with
    | some bytes => .wrote bytes
    | none => .failed .malformed

end ParcelCodec.Wire.Op
