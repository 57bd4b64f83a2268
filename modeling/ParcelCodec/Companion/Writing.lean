import ParcelCodec.Companion.Statics

/-!
# Statements that write

How the value of a codec is written to a buffer, the counterpart of reading it: a marker in front
of a value that may be null, and the number of elements in front of the elements.
-/

namespace ParcelCodec

namespace Statics

/-- The marker in front of a value. -/
def present : Expr := .int 0

/-- The marker in place of a null. -/
def absent : Expr := .int 1

/-- Writes a slot, with the statements that write its value if it is not null. -/
def writeSlot (c : Codec) (nullable : Bool) (value : Expr) (direct : List Stmt) : List Stmt :=
  if nullable && !c.isNullSafe then
    [.ifNull value [.write .int absent] (.write .int present :: direct)]
  else direct

/-- Writes a leaf. -/
def writeLeaf (value : Expr) : Leaf → Stmt
  | .primitive p => .write p.op value
  | .boxed p => .write p.op value
  | .string => .write .string value
  | .platform op => .write op value
  | .primitiveArray p => .write p.arrayOp value
  | .sparseBooleanArray => .write .sparseBooleanArray value
  | .enum => .write .string (.enumName value)
  | .nested companion => .writeNested companion value
  | .parcelable => .write .parcelable value
  | .serializable => .write .serializable value
  | .tagged => .write .value value

/-- Writes a value of a codec that is not null. -/
def writePresent (s : Statics) : Codec → Expr → NameScope → List Stmt
  | .leaf _ l, value, _ => [writeLeaf value l]
  | .adapter _ use _, value, _ => [.adapterWrite (s.refTo use) value]
  | .array _ e, value, scope =>
    let (index, scope) := scope.allocate "i"
    let (item, scope) := scope.allocate "element"
    [.write .int (.length value),
     .forCount index (.length value)
       (.declare item e.type (.index value (.var index))
         :: writeSlot e true (.var item) (writePresent s e (.var item) scope))]
  | .sequence _ _ box e, value, scope =>
    let (item, scope) := scope.allocate "element"
    [.write .int (.size value),
     .forEach item e.type value
       (writeSlot e box.nulls (.var item) (writePresent s e (.var item) scope))]
  | .map _ box k v, value, scope =>
    let (key, scope) := scope.allocate "key"
    let (item, scope) := scope.allocate "value"
    [.write .int (.size value),
     .forEntries key k.type item v.type value
       (writeSlot k box.nulls (.var key) (writePresent s k (.var key) scope)
         ++ writeSlot v true (.var item) (writePresent s v (.var item) scope))]
  | .sparseArray _ e, value, scope =>
    let (index, scope) := scope.allocate "i"
    let (item, scope) := scope.allocate "element"
    [.write .int (.size value),
     .forCount index (.size value)
       (.write .int (.keyAt value (.var index))
         :: .declare item e.type (.valueAt value (.var index))
         :: writeSlot e true (.var item) (writePresent s e (.var item) scope))]

end Statics

end ParcelCodec
