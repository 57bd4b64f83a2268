import ParcelCodec.Java.Type

/-!
# Platform types

What is known about classes that no model declares: the containers and what they are rebuilt
with, the classes that one buffer operation carries, the number of type parameters, which classes
are serializable or parcelable, and the names that need no import.
-/

namespace ParcelCodec.Java

/-! ## §1. Well-known names. -/

def parcelableName : String := "android.os.Parcelable"
def serializableName : String := "java.io.Serializable"
def typeAdapterName : String := "brine.parcel.TypeAdapter"
def className : String := "java.lang.Class"
def sparseArrayName : String := "android.util.SparseArray"

/-! ## §2. Containers. -/

/-- The kinds of containers that hold one element after another. -/
inductive SequenceKind where
  | list | set | queue
  deriving Repr, DecidableEq

/-- The kinds of containers. -/
inductive CollectionKind where
  | sequence (kind : SequenceKind)
  | map
  deriving Repr, DecidableEq

/-- The name of a kind. -/
def CollectionKind.name : CollectionKind → String
  | .sequence .list => "List"
  | .sequence .set => "Set"
  | .sequence .queue => "Queue"
  | .map => "Map"

/-- The number of type parameters of a kind. -/
def CollectionKind.arity : CollectionKind → Nat
  | .map => 2
  | _ => 1

/-- What is known about a container type. -/
structure Collection where
  kind : CollectionKind
  /-- The type is an interface. -/
  interface : Bool
  /-- The class that is instantiated when one is read. -/
  concrete : String
  /-- The concrete class takes a capacity. -/
  sized : Bool
  /-- The concrete class holds null elements (null keys, for maps). -/
  nulls : Bool
  deriving Repr, DecidableEq

/-- The container types. -/
def collections : List (String × Collection) :=
  [("java.util.Collection", ⟨.sequence .list, true, "java.util.ArrayList", true, true⟩),
   ("java.util.List", ⟨.sequence .list, true, "java.util.ArrayList", true, true⟩),
   ("java.util.ArrayList", ⟨.sequence .list, false, "java.util.ArrayList", true, true⟩),
   ("java.util.LinkedList", ⟨.sequence .list, false, "java.util.LinkedList", false, true⟩),
   ("java.util.Set", ⟨.sequence .set, true, "java.util.LinkedHashSet", true, true⟩),
   ("java.util.SortedSet", ⟨.sequence .set, true, "java.util.TreeSet", false, false⟩),
   ("java.util.HashSet", ⟨.sequence .set, false, "java.util.HashSet", true, true⟩),
   ("java.util.LinkedHashSet", ⟨.sequence .set, false, "java.util.LinkedHashSet", true, true⟩),
   ("java.util.TreeSet", ⟨.sequence .set, false, "java.util.TreeSet", false, false⟩),
   ("java.util.Queue", ⟨.sequence .queue, true, "java.util.LinkedList", false, true⟩),
   ("java.util.Deque", ⟨.sequence .queue, true, "java.util.LinkedList", false, true⟩),
   ("java.util.ArrayDeque", ⟨.sequence .queue, false, "java.util.ArrayDeque", true, false⟩),
   ("java.util.Map", ⟨.map, true, "java.util.LinkedHashMap", true, true⟩),
   ("java.util.SortedMap", ⟨.map, true, "java.util.TreeMap", false, false⟩),
   ("java.util.HashMap", ⟨.map, false, "java.util.HashMap", true, true⟩),
   ("java.util.LinkedHashMap", ⟨.map, false, "java.util.LinkedHashMap", true, true⟩),
   ("java.util.TreeMap", ⟨.map, false, "java.util.TreeMap", false, false⟩)]

/-- What is known about a container type of this name. -/
def collection? (name : String) : Option Collection :=
  collections.lookup name

/-! ## §3. Classes that one operation carries. -/

/-- The classes that a single buffer operation carries. -/
def platformOps : List (String × Wire.Op) :=
  [("java.lang.String", .string),
   ("java.lang.CharSequence", .charSequence),
   ("android.os.Bundle", .bundle),
   ("android.os.PersistableBundle", .persistableBundle),
   ("android.os.IBinder", .strongBinder),
   ("android.util.Size", .size),
   ("android.util.SizeF", .sizeF),
   ("android.util.SparseBooleanArray", .sparseBooleanArray),
   ("java.math.BigInteger", .bigInteger),
   ("java.math.BigDecimal", .bigDecimal)]

/-- The operation that carries a class of this name. -/
def platformOp? (name : String) : Option Wire.Op :=
  platformOps.lookup name

/-! ## §4. Type parameters. -/

/-- Generic platform types that are no containers. -/
def otherArities : List (String × Nat) :=
  [(sparseArrayName, 1), (className, 1), (typeAdapterName, 1), ("java.lang.Comparable", 1),
   ("java.lang.Iterable", 1), ("java.lang.Enum", 1), ("android.os.Parcelable.Creator", 1)]

/-- The number of type parameters of a generic platform type. -/
def platformArity? (name : String) : Option Nat :=
  match collection? name with
  | some info => some info.kind.arity
  | none => otherArities.lookup name

/-! ## §5. Supertypes. -/

/-- Serializable classes that are listed nowhere else. -/
def otherSerializables : List String :=
  ["java.lang.Number", "java.lang.Enum", "java.util.Date", "java.util.UUID", "java.util.Locale",
   "java.util.Calendar", "java.util.Currency", "java.io.File", "java.net.URI", "java.net.URL",
   "java.util.regex.Pattern", "java.lang.String", "java.lang.CharSequence",
   "java.math.BigInteger", "java.math.BigDecimal"]

/-- The parcelable platform classes. -/
def parcelables : List String :=
  ["android.os.Bundle", "android.os.PersistableBundle", "android.content.Intent",
   "android.graphics.Point", "android.graphics.PointF", "android.graphics.Rect",
   "android.graphics.RectF", "android.graphics.Bitmap", "android.net.Uri",
   "android.location.Location"]

/-- Whether a platform type is serializable: the interface itself, a listed class, a container
class, or a boxed primitive. -/
def platformSerializable (name : String) : Bool :=
  name == serializableName || otherSerializables.contains name
    || (collection? name).any (fun info => !info.interface)
    || (Primitive.ofBoxed? name).isSome

/-- Whether a platform type is parcelable. -/
def platformParcelable (name : String) : Bool :=
  name == parcelableName || parcelables.contains name

/-! ## §6. Names without an import. -/

/-- The classes that are known by their simple names. -/
def implicitNames : List (String × String) :=
  [("Object", "java.lang.Object"), ("String", "java.lang.String"),
   ("CharSequence", "java.lang.CharSequence"), ("Boolean", "java.lang.Boolean"),
   ("Byte", "java.lang.Byte"), ("Short", "java.lang.Short"), ("Character", "java.lang.Character"),
   ("Integer", "java.lang.Integer"), ("Long", "java.lang.Long"), ("Float", "java.lang.Float"),
   ("Double", "java.lang.Double"), ("Number", "java.lang.Number"), ("Enum", "java.lang.Enum"),
   ("Class", "java.lang.Class"), ("Comparable", "java.lang.Comparable"),
   ("Iterable", "java.lang.Iterable"), ("TypeAdapter", typeAdapterName)]

/-- The class that a simple name stands for without an import. -/
def implicitName? (name : String) : Option String :=
  implicitNames.lookup name

/-! ## §7. Reserved words. -/

/-- Words that name no variable. -/
def reservedWords : List String :=
  ["abstract", "assert", "boolean", "break", "byte", "case", "catch", "char", "class", "const",
   "continue", "default", "do", "double", "else", "enum", "extends", "final", "finally", "float",
   "for", "goto", "if", "implements", "import", "instanceof", "int", "interface", "long", "native",
   "new", "package", "private", "protected", "public", "return", "short", "static", "strictfp",
   "super", "switch", "synchronized", "this", "throw", "throws", "transient", "try", "void",
   "volatile", "while", "true", "false", "null", "var"]

end ParcelCodec.Java
