/-!
# Values

What a parcel slot holds once it is read: scalars of fixed width, text, platform payloads that are
carried without being interpreted, containers, and instances of data classes.

Two conventions make equality of values meaningful.  Floating-point numbers are kept as words, so
`=` on values compares bits.  The fields of an instance are kept in ascending order of their
names, so two instances are equal no matter in which order their fields were assigned.
-/

namespace ParcelCodec

/-- A value that a parcel can carry. -/
inductive Value where
  /-- The absent value. -/
  | null
  | bool (value : Bool)
  | byte (value : Int8)
  | short (value : Int16)
  /-- One UTF-16 code unit. -/
  | char (unit : UInt16)
  | int (value : Int32)
  | long (value : Int64)
  /-- A four-byte floating-point number, as its word. -/
  | float (word : UInt32)
  /-- An eight-byte floating-point number, as its word. -/
  | double (word : UInt64)
  | string (text : String)
  /-- An enum constant, by name. -/
  | enumConstant (name : String)
  /-- An integer in big-endian two's complement. -/
  | bigInteger (bytes : List UInt8)
  /-- An unscaled integer in big-endian two's complement, and the number of decimal places. -/
  | bigDecimal (unscaled : List UInt8) (scale : Int32)
  | size (width height : Int32)
  | sizeF (width height : UInt32)
  /-- A platform payload that is carried without being interpreted. -/
  | blob (bytes : List UInt8)
  | array (items : List Value)
  | list (items : List Value)
  | set (items : List Value)
  /-- The entries of a map in their order; keys may repeat. -/
  | map (entries : List (Value × Value))
  | sparseArray (entries : List (Int32 × Value))
  | sparseBooleanArray (entries : List (Int32 × Bool))
  /-- An instance of a data class: its class, and its fields in ascending order of their names. -/
  | object (className : String) (fields : List (String × Value))
  /-- The only instance of a class. -/
  | singleton (className : String)
  deriving Repr, Inhabited

namespace Value

/-! ## §1. Fields of an instance. -/

/-- The fields with `name` set: an existing field is replaced, a new one takes its place in the
order of names. -/
def setField (name : String) (value : Value) : List (String × Value) → List (String × Value)
  | [] => [(name, value)]
  | (n, v) :: rest =>
    if name = n then (name, value) :: rest
    else if name < n then (name, value) :: (n, v) :: rest
    else (n, v) :: setField name value rest

/-- The fields built from pairs in any order; a later pair replaces an earlier one. -/
def fieldsOf (pairs : List (String × Value)) : List (String × Value) :=
  pairs.foldl (fun fields p => setField p.1 p.2 fields) []

/-- The field of an instance, if it has one of that name. -/
def get? (value : Value) (name : String) : Option Value :=
  match value with
  | .object _ fields => fields.lookup name
  | _ => none

/-- An instance with a field set; any other value is left alone. -/
def put (value : Value) (name : String) (field : Value) : Value :=
  match value with
  | .object className fields => .object className (setField name field fields)
  | other => other

/-! ## §2. Views of a value. -/

def isNull : Value → Bool
  | .null => true
  | _ => false

/-- The truth value, or false of any other value. -/
def asBool : Value → Bool
  | .bool b => b
  | _ => false

/-- The four-byte integer, or zero of any other value. -/
def asInt : Value → Int32
  | .int n => n
  | _ => 0

/-- The eight-byte integer, or zero of any other value. -/
def asLong : Value → Int64
  | .long n => n
  | _ => 0

/-- The text of a string or the name of an enum constant, or nothing of any other value. -/
def asText : Value → String
  | .string s => s
  | .enumConstant s => s
  | _ => ""

/-- The class of an instance. -/
def className? : Value → Option String
  | .object c _ => some c
  | .singleton c => some c
  | _ => none

/-- The number of elements or entries of a container, or zero of any other value. -/
def length : Value → Nat
  | .array items => items.length
  | .list items => items.length
  | .set items => items.length
  | .map entries => entries.length
  | .sparseArray entries => entries.length
  | .sparseBooleanArray entries => entries.length
  | _ => 0

/-- The element of a sequence at a position. -/
def item? (value : Value) (index : Nat) : Option Value :=
  match value with
  | .array items => items[index]?
  | .list items => items[index]?
  | .set items => items[index]?
  | _ => none

mutual

/-- The number of values a value is made of. -/
def weight : Value → Nat
  | .array items => weightOfItems items + 1
  | .list items => weightOfItems items + 1
  | .set items => weightOfItems items + 1
  | .map entries => weightOfEntries entries + 1
  | .sparseArray entries => weightOfSparse entries + 1
  | .object _ fields => weightOfFields fields + 1
  | _ => 1

/-- The weight of a sequence. -/
def weightOfItems : List Value → Nat
  | [] => 0
  | v :: rest => v.weight + weightOfItems rest

/-- The weight of the entries of a map. -/
def weightOfEntries : List (Value × Value) → Nat
  | [] => 0
  | (k, v) :: rest => k.weight + v.weight + weightOfEntries rest

/-- The weight of the entries of a sparse array. -/
def weightOfSparse : List (Int32 × Value) → Nat
  | [] => 0
  | (_, v) :: rest => v.weight + weightOfSparse rest

/-- The weight of the fields of an instance. -/
def weightOfFields : List (String × Value) → Nat
  | [] => 0
  | (_, v) :: rest => v.weight + weightOfFields rest

end

end Value

end ParcelCodec
