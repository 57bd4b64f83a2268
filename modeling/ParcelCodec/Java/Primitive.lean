import ParcelCodec.Wire.Op

/-!
# Primitive types

The eight primitive types, their keywords and boxed classes, and the buffer operations for one
value and for an array of them.
-/

namespace ParcelCodec.Java

/-- A primitive type. -/
inductive Primitive where
  | boolean | byte | short | char | int | long | float | double
  deriving Repr, DecidableEq

namespace Primitive

/-- Every primitive type. -/
def all : List Primitive := [.boolean, .byte, .short, .char, .int, .long, .float, .double]

/-- The keyword of a primitive type. -/
def keyword : Primitive → String
  | .boolean => "boolean"
  | .byte => "byte"
  | .short => "short"
  | .char => "char"
  | .int => "int"
  | .long => "long"
  | .float => "float"
  | .double => "double"

/-- The class that boxes a primitive type. -/
def boxed : Primitive → String
  | .boolean => "java.lang.Boolean"
  | .byte => "java.lang.Byte"
  | .short => "java.lang.Short"
  | .char => "java.lang.Character"
  | .int => "java.lang.Integer"
  | .long => "java.lang.Long"
  | .float => "java.lang.Float"
  | .double => "java.lang.Double"

/-- The primitive type of a keyword. -/
def ofKeyword? (text : String) : Option Primitive :=
  all.find? (·.keyword == text)

/-- The primitive type that a class boxes. -/
def ofBoxed? (name : String) : Option Primitive :=
  all.find? (·.boxed == name)

/-- The operation for one value. -/
def op : Primitive → Wire.Op
  | .boolean => .boolean
  | .byte => .byte
  | .short => .short
  | .char => .char
  | .int => .int
  | .long => .long
  | .float => .float
  | .double => .double

/-- The operation for an array. -/
def arrayOp : Primitive → Wire.Op
  | .boolean => .booleanArray
  | .byte => .byteArray
  | .short => .shortArray
  | .char => .charArray
  | .int => .intArray
  | .long => .longArray
  | .float => .floatArray
  | .double => .doubleArray

theorem ofKeyword?_keyword (p : Primitive) : ofKeyword? p.keyword = some p := by
  cases p <;> decide

theorem ofBoxed?_boxed (p : Primitive) : ofBoxed? p.boxed = some p := by
  cases p <;> decide

end Primitive

end ParcelCodec.Java
