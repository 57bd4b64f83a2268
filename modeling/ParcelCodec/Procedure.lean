import ParcelCodec.Java.Platform

/-!
# Procedures

What a companion does, in statements that name buffer operations, local variables and resolved
types, and nothing of a target language.  A procedure that reads takes a buffer; one that writes
takes a buffer and a value.  Procedures can be printed as source text and they can be run.
-/

namespace ParcelCodec

/-! ## §1. Expressions. -/

/-- What kind of container is built. -/
inductive ContainerKind where
  | collection (kind : Java.CollectionKind)
  | sparseArray
  deriving Repr, DecidableEq

/-- The name of a kind of container. -/
def ContainerKind.name : ContainerKind → String
  | .collection kind => kind.name
  | .sparseArray => "SparseArray"

/-- How a procedure reaches an adapter. -/
inductive AdapterRef where
  /-- Through a field of the companion. -/
  | field (name : String)
  /-- Through the own instance of the adapter's class. -/
  | ownInstance (className : String)
  deriving Repr, DecidableEq

/-- An expression. -/
inductive Expr where
  | var (name : String)
  | null
  | int (n : Int32)
  /-- One buffer operation.  An operation that needs the class loader names the variable that
  holds it. -/
  | read (op : Wire.Op) (loader : Option String)
  /-- The number of elements of a container. -/
  | size (target : Expr)
  /-- The length of an array. -/
  | length (target : Expr)
  | index (target position : Expr)
  /-- The key at a position of a sparse array. -/
  | keyAt (target position : Expr)
  /-- The value at a position of a sparse array. -/
  | valueAt (target position : Expr)
  | newContainer (kind : ContainerKind) (type : JavaType) (capacity : Option Expr)
  | newArray (element : JavaType) (length : Expr)
  | cast (type : JavaType) (value : Expr)
  /-- The constant of an enum, from its name. -/
  | enumValueOf (type : JavaType) (name : Expr)
  /-- The name of an enum's constant. -/
  | enumName (value : Expr)
  /-- An instance of a data class, through its companion. -/
  | readNested (companion : String)
  | adapterRead (adapter : AdapterRef)
  /-- A value of a shared codec of the companion. -/
  | codecRead (codec : String)
  | field (target : Expr) (field : String)
  | getter (target : Expr) (method field : String)
  | reflect (target : Expr) (owner : JavaType) (field : String) (type : JavaType)
  /-- A new instance.  Each argument is labelled with the property that it sets. -/
  | construct (type : JavaType) (args : List (String × Expr))
  | singleton (type : JavaType)
  | classLoader (type : JavaType)
  deriving Repr, Inhabited

/-! ## §2. Statements. -/

/-- A statement. -/
inductive Stmt where
  | declare (name : String) (type : JavaType) (init : Expr)
  | assign (name : String) (value : Expr)
  | write (op : Wire.Op) (value : Expr)
  /-- Reads a marker and runs the body if the marker says that a value follows. -/
  | ifPresent (body : List Stmt)
  | ifNull (value : Expr) (thens otherwise : List Stmt)
  /-- Runs the body for the numbers below a count. -/
  | forCount (index : String) (count : Expr) (body : List Stmt)
  | forEach (var : String) (type : JavaType) (iterable : Expr) (body : List Stmt)
  | forEntries (key : String) (keyType : JavaType) (value : String) (valueType : JavaType)
    (map : Expr) (body : List Stmt)
  | add (target : String) (value : Expr)
  | put (target : String) (key value : Expr)
  | store (array : String) (index value : Expr)
  | writeNested (companion : String) (value : Expr)
  | adapterWrite (adapter : AdapterRef) (value : Expr)
  | codecWrite (codec : String) (value : Expr)
  | setField (target field : String) (value : Expr)
  | callSetter (target method field : String) (value : Expr)
  | reflectSet (target : String) (owner : JavaType) (field : String) (value : Expr)
  /-- Ends the procedure with a value. -/
  | ret (value : Expr)
  deriving Repr, Inhabited

/-! ## §3. Procedures. -/

/-- A procedure. -/
structure Procedure where
  /-- The variable that holds the value to write, for a procedure that writes. -/
  value : Option String
  body : List Stmt
  deriving Repr

end ParcelCodec
