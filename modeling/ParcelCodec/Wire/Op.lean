/-!
# Buffer operations

The primitives a procedure may invoke on a parcel.  Each has a layout of its own; whether its
slot may be absent is the caller's affair.
-/

namespace ParcelCodec.Wire

/-- A buffer operation, named for what its slot holds. -/
inductive Op where
  | boolean | byte | short | char | int | long | float | double
  | string
  /-- Text behind a marker that says it carries no styling. -/
  | charSequence
  | booleanArray | byteArray | charArray | shortArray | intArray | longArray | floatArray
  | doubleArray
  | bigInteger | bigDecimal
  | size | sizeF
  | sparseBooleanArray
  | bundle | persistableBundle | strongBinder | serializable
  /-- A class name and an instance of that class. -/
  | parcelable
  /-- A type tag and a value of that type. -/
  | value
  deriving Repr, DecidableEq

namespace Op

/-- Every operation. -/
def all : List Op :=
  [.boolean, .byte, .short, .char, .int, .long, .float, .double, .string, .charSequence,
   .booleanArray, .byteArray, .charArray, .shortArray, .intArray, .longArray, .floatArray,
   .doubleArray, .bigInteger, .bigDecimal, .size, .sizeF, .sparseBooleanArray, .bundle,
   .persistableBundle, .strongBinder, .serializable, .parcelable, .value]

/-- The name of an operation in messages. -/
def name : Op → String
  | .boolean => "Boolean"
  | .byte => "Byte"
  | .short => "Short"
  | .char => "Char"
  | .int => "Int"
  | .long => "Long"
  | .float => "Float"
  | .double => "Double"
  | .string => "String"
  | .charSequence => "CharSequence"
  | .booleanArray => "BooleanArray"
  | .byteArray => "ByteArray"
  | .charArray => "CharArray"
  | .shortArray => "ShortArray"
  | .intArray => "IntArray"
  | .longArray => "LongArray"
  | .floatArray => "FloatArray"
  | .doubleArray => "DoubleArray"
  | .bigInteger => "BigInteger"
  | .bigDecimal => "BigDecimal"
  | .size => "Size"
  | .sizeF => "SizeF"
  | .sparseBooleanArray => "SparseBooleanArray"
  | .bundle => "Bundle"
  | .persistableBundle => "PersistableBundle"
  | .strongBinder => "StrongBinder"
  | .serializable => "Serializable"
  | .parcelable => "Parcelable"
  | .value => "Value"

/-- The operation of a name. -/
def ofName? (name : String) : Option Op :=
  all.find? (·.name == name)

/-- Whether reading needs the class loader: the slot may hold instances of classes that are only
known by name. -/
def needsClassLoader : Op → Bool
  | .bundle | .persistableBundle | .parcelable | .value => true
  | _ => false

/-- Whether the slot holds instances of other classes, so that only a machine that knows the
companions can read and write it. -/
def isPolymorphic : Op → Bool
  | .parcelable | .value => true
  | _ => false

end Op

end ParcelCodec.Wire
