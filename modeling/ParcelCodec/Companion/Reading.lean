import ParcelCodec.Companion.Statics

/-!
# Statements that read

How the value of a codec is read from a buffer.  A slot whose value may be null starts with a
marker, and the value follows only if the marker says so.  A container starts with the number of
its elements.

Local variables are fresh in the block that declares them.  The result of a draft is an
expression, which the caller puts to use where the draft ends.
-/

namespace ParcelCodec

/-- Statements, and the value that they lead to. -/
structure Draft where
  stmts : List Stmt
  value : Expr

/-- What the statements of one procedure refer to. -/
structure Surroundings where
  statics : Statics
  /-- The variable that holds the class loader, where one is declared. -/
  loader : Option String

namespace Surroundings

/-! ## §1. Slots. -/

/-- One operation, with the class loader if it needs it. -/
def readOp (s : Surroundings) (op : Wire.Op) : Expr :=
  .read op (if op.needsClassLoader then s.loader else none)

/-- The value of a leaf. -/
def readLeaf (s : Surroundings) (ty : JavaType) : Leaf → Expr
  | .primitive p => .read p.op none
  | .boxed p => .read p.op none
  | .string => .read .string none
  | .platform op => s.readOp op
  | .primitiveArray p => .read p.arrayOp none
  | .sparseBooleanArray => .read .sparseBooleanArray none
  | .enum => .enumValueOf ty (.read .string none)
  | .nested companion => .readNested companion
  | .parcelable => .cast ty (s.readOp .parcelable)
  | .serializable => .cast ty (.read .serializable none)
  | .tagged => s.readOp .value

/-- Declares a local variable and reads a slot into it. -/
def readSlot (c : Codec) (nullable : Bool) (name : String) (direct : Draft) : List Stmt :=
  if nullable && !c.isNullSafe then
    [.declare name c.type .null,
     .ifPresent (direct.stmts ++ [.assign name direct.value])]
  else direct.stmts ++ [.declare name c.type direct.value]

/-! ## §2. Containers. -/

/-- What the local variable of a container is called. -/
def containerName : ContainerKind → String
  | .collection (.sequence .list) => "list"
  | .collection (.sequence .set) => "set"
  | .collection (.sequence .queue) => "queue"
  | .collection .map => "map"
  | .sparseArray => "sparseArray"

/-- Reads a container: its size, and as often the statements for one element. -/
def readContainer (kind : ContainerKind) (concrete : JavaType) (sized : Bool) (scope : NameScope)
    (element : (target : String) → NameScope → List Stmt) : Draft :=
  let (size, scope) := scope.allocate "size"
  let (target, scope) := scope.allocate (containerName kind)
  let (index, inner) := scope.allocate "i"
  let capacity := if sized then some (.var size) else none
  ⟨[.declare size .int (.read .int none),
    .declare target concrete (.newContainer kind concrete capacity),
    .forCount index (.var size) (element target inner)],
   .var target⟩

/-- The type of the elements of an array when it is created, and the type of the array.  Arrays of
tagged values are arrays of objects. -/
def arrayTypes (ty : JavaType) (element : Codec) : JavaType × JavaType :=
  if element.isTagged then (.object, .array .object) else (element.type, ty)

/-- Reads an array: its length, and as often the statements for one element. -/
def readArray (ty : JavaType) (e : Codec) (scope : NameScope)
    (element : (item : String) → NameScope → List Stmt) : Draft :=
  let (length, scope) := scope.allocate "length"
  let (array, scope) := scope.allocate "array"
  let (index, inner) := scope.allocate "i"
  let (item, inner) := inner.allocate "element"
  let (component, arrayType) := arrayTypes ty e
  ⟨[.declare length .int (.read .int none),
    .declare array arrayType (.newArray component (.var length)),
    .forCount index (.var length)
      (element item inner ++ [.store array (.var index) (.var item)])],
   if e.isTagged then .cast ty (.var array) else .var array⟩

/-- Reads a value of a codec that is not null. -/
def readPresent (s : Surroundings) : Codec → NameScope → Draft
  | .leaf ty l, _ => ⟨[], s.readLeaf ty l⟩
  | .adapter _ use _, _ => ⟨[], .adapterRead (s.statics.refTo use)⟩
  | .array ty e, scope =>
    readArray ty e scope fun item scope => readSlot e true item (readPresent s e scope)
  | .sequence _ kind box e, scope =>
    readContainer (.collection (.sequence kind)) box.concrete box.sized scope fun target scope =>
      let (item, scope) := scope.allocate "element"
      readSlot e box.nulls item (readPresent s e scope) ++ [.add target (.var item)]
  | .map _ box k v, scope =>
    readContainer (.collection .map) box.concrete box.sized scope fun target scope =>
      let (key, scope) := scope.allocate "key"
      -- The key is read before the value has a name.
      let (value, inner) := scope.allocate "value"
      readSlot k box.nulls key (readPresent s k scope)
        ++ readSlot v true value (readPresent s v inner)
        ++ [.put target (.var key) (.var value)]
  | .sparseArray ty e, scope =>
    readContainer .sparseArray ty true scope fun target scope =>
      let (key, scope) := scope.allocate "key"
      let (value, scope) := scope.allocate "value"
      [.declare key .int (.read .int none)]
        ++ readSlot e true value (readPresent s e scope)
        ++ [.put target (.var key) (.var value)]

end Surroundings

end ParcelCodec
