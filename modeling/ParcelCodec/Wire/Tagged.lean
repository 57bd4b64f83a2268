import ParcelCodec.Value
import ParcelCodec.Wire.Slot

/-!
# Tagged values

A tagged value is an integer tag followed by a payload whose layout the tag fixes; lists and maps
hold tagged values in turn.  An instance of a class is handed to a hook on both sides, since only
its companion knows its layout.

Reading nests no deeper than the bytes allow, because a list or a map spends its tag before it
reads its first item: the remaining bytes bound the depth.
-/

namespace ParcelCodec.Wire

namespace Tag

def null : Int32 := -1
def string : Int32 := 0
def int : Int32 := 1
def map : Int32 := 2
def instanceOf : Int32 := 4
def short : Int32 := 5
def long : Int32 := 6
def float : Int32 := 7
def double : Int32 := 8
def boolean : Int32 := 9
def list : Int32 := 11
def byteArray : Int32 := 13
def byte : Int32 := 20

end Tag

/-! ## §1. Reading. -/

namespace Read

variable {ε : Type}

/-- The bytes of a byte array, as values. -/
def byteItems (bytes : List UInt8) : List Value :=
  bytes.map fun b => .byte b.toInt8

/-- A pair of reads. -/
def pair (first : Step Cursor ε α) (second : Step Cursor ε β) : Step Cursor ε (α × β) := do
  let a ← first
  let b ← second
  return (a, b)

/-- A slot among reads that can also fail in ways of their own. -/
def slot (bad : ε) (read : Read α) : Step Cursor ε α := Step.mapError (fun _ => bad) read

/-- A counted container of tagged items, or null in its place. -/
def counted (bad : ε) (item : Step Cursor ε α) (wrap : List α → Value) : Step Cursor ε Value := do
  match ← slot bad length with
  | none => return .null
  | some n => return wrap (← Step.replicate n item)

/-- The payload behind a tag, where `item` reads a tagged value one level further in. -/
def payload (bad : ε) (hook item : Step Cursor ε Value) (tag : Int32) : Step Cursor ε Value :=
  if tag = Tag.null then return .null
  else if tag = Tag.string then do
    return ((← slot bad string).map Value.string).getD .null
  else if tag = Tag.int then do return .int (← slot bad int)
  else if tag = Tag.short then do return .short (← slot bad short)
  else if tag = Tag.long then do return .long (← slot bad long)
  else if tag = Tag.float then do return .float (← slot bad word)
  else if tag = Tag.double then do return .double (← slot bad doubleWord)
  else if tag = Tag.boolean then do return .bool (← slot bad bool)
  else if tag = Tag.byte then do return .byte (← slot bad byte)
  else if tag = Tag.byteArray then do
    return ((← slot bad byteArray).map fun b => Value.array (byteItems b)).getD .null
  else if tag = Tag.list then counted bad item .list
  else if tag = Tag.map then counted bad (pair item item) .map
  else if tag = Tag.instanceOf then hook
  else Step.fail bad

/-- A tagged value that nests no deeper than `depth`. -/
def taggedWithin (bad : ε) (hook : Step Cursor ε Value) : (depth : Nat) → Step Cursor ε Value
  | 0 => Step.fail bad
  | depth + 1 => do payload bad hook (taggedWithin bad hook depth) (← slot bad int)

/-- A tagged value; instances are read by the hook, and `bad` is how anything else fails. -/
def tagged (bad : ε) (hook : Step Cursor ε Value) : Step Cursor ε Value := fun c =>
  taggedWithin bad hook (c.remaining + 1) c

/-- A tagged value that may hold no instances. -/
def plainTagged : Read Value := tagged .malformed (Step.fail .malformed)

end Read

/-- The tagged value at the start of some bytes, if it holds no instances. -/
def decodePlain (bytes : List UInt8) : Except Malformed Value :=
  (Read.plainTagged (.ofBytes bytes)).1

/-! ## §2. Writing. -/

namespace Slot

/-- The bytes of an array of bytes; an array that holds anything else has none. -/
def bytesOfItems? (items : List Value) : Option (List UInt8) :=
  items.mapM fun v => match v with
    | .byte b => some b.toUInt8
    | _ => none

variable {ε : Type}

mutual

/-- A tagged value; instances are written by the hook, and `bad` is how anything else fails.  What
stands before an item that cannot be written has been written by then. -/
def tagged (bad : ε) (hook : Value → Emission ε) : Value → Emission ε
  | .null => .wrote (int Tag.null)
  | .string s => .wrote (int Tag.string ++ text s)
  | .int n => .wrote (int Tag.int ++ int n)
  | .short n => .wrote (int Tag.short ++ short n)
  | .long n => .wrote (int Tag.long ++ long n)
  | .float w => .wrote (int Tag.float ++ word w)
  | .double w => .wrote (int Tag.double ++ doubleWord w)
  | .bool b => .wrote (int Tag.boolean ++ bool b)
  | .byte n => .wrote (int Tag.byte ++ byte n)
  | .array items =>
    match bytesOfItems? items with
    | some content => .wrote (int Tag.byteArray ++ bytes content)
    | none => .failed bad
  | .list items =>
    (Emission.wrote (int Tag.list ++ length items.length)).andThen (taggedItems bad hook items)
  | .map entries =>
    (Emission.wrote (int Tag.map ++ length entries.length)).andThen
      (taggedEntries bad hook entries)
  | .object className fields =>
    (Emission.wrote (int Tag.instanceOf)).andThen (hook (.object className fields))
  | .singleton className =>
    (Emission.wrote (int Tag.instanceOf)).andThen (hook (.singleton className))
  | _ => .failed bad

/-- The items of a list, one after another. -/
def taggedItems (bad : ε) (hook : Value → Emission ε) : List Value → Emission ε
  | [] => .wrote []
  | v :: rest => (tagged bad hook v).andThen (taggedItems bad hook rest)

/-- The entries of a map, each key before its value. -/
def taggedEntries (bad : ε) (hook : Value → Emission ε) : List (Value × Value) → Emission ε
  | [] => .wrote []
  | (k, v) :: rest =>
    ((tagged bad hook k).andThen (tagged bad hook v)).andThen (taggedEntries bad hook rest)

end

/-- A tagged value that may hold no instances. -/
def plainTagged : Value → Emission Malformed := tagged .malformed fun _ => .failed .malformed

end Slot

/-- The bytes of a tagged value that holds no instances. -/
def encodePlain (value : Value) : Except Malformed (List UInt8) :=
  (Slot.plainTagged value).toExcept

end ParcelCodec.Wire
