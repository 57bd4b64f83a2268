import ParcelCodec.Adapter.Registry
import ParcelCodec.Codec
import ParcelCodec.Options

/-!
# Which rule a type falls under

The rules are tried in a fixed order, and the first that applies wins:

1. an adapter of high priority,
2. an exact built-in: primitives, boxed primitives, `String`, platform classes, primitive arrays,
3. an adapter of default priority,
4. a structural shape: enum, array, container, sparse array, data class,
5. a parcelable class,
6. a serializable class,
7. `Object`, as a tagged value.

If adapters are preferred, the second and the third rule swap places.
-/

namespace ParcelCodec

/-- What a codec is chosen from. -/
structure Codebook where
  catalog : Catalog
  registry : Registry
  tieBreak : TieBreak
  /-- The data classes that get no companion; a type that needs one of theirs has no codec. -/
  rejected : List String
  /-- How much deeper the search for a codec may go than its type and the registry account for. -/
  spareDepth : Nat

/-- A rule that a type falls under, with what the rule says about the parts of the type. -/
inductive Rule where
  | leaf (leaf : Leaf)
  | adapter (found : AdapterMatch)
  | array (component : JavaType)
  | sequence (kind : Java.SequenceKind) (container : Container) (element : JavaType)
  | map (container : Container) (key value : JavaType)
  | sparseArray (element : JavaType)

/-- The name of the rule for a leaf. -/
def Leaf.ruleName : Leaf → String
  | .primitive _ => "primitive"
  | .boxed _ => "boxed"
  | .string => "string"
  | .platform _ => "platform"
  | .primitiveArray _ => "primitive-array"
  | .sparseBooleanArray => "sparse-boolean-array"
  | .enum => "enum"
  | .nested _ => "nested"
  | .parcelable => "parcelable"
  | .serializable => "serializable"
  | .tagged => "opaque"

/-- The name of a rule. -/
def Rule.name : Rule → String
  | .leaf l => l.ruleName
  | .adapter _ => "adapter"
  | .array _ => "array"
  | .sequence _ _ _ => "collection"
  | .map _ _ _ => "collection"
  | .sparseArray _ => "sparse-array"

namespace Codebook

/-! ## §1. Findings. -/

def noCodec (ty : JavaType) : Unresolved :=
  ⟨.fieldMissingCodec, "No codec or adapter handles " ++ ty.display⟩

def noCompanion (name : String) : Unresolved :=
  ⟨.fieldMissingCodec, name ++ " is a data class without a generated companion"⟩

def needsArguments (name : String) : Unresolved :=
  ⟨.rawTypeError, name ++ " needs type arguments to be encoded"⟩

/-! ## §2. The rules. -/

/-- The leaf for a class that one operation carries. -/
def platformLeaf : Wire.Op → Leaf
  | .string => .string
  | .sparseBooleanArray => .sparseBooleanArray
  | op => .platform op

/-- The exact built-in for a type. -/
def exactLeaf? : JavaType → Option Leaf
  | .primitive p => some (.primitive p)
  | .array (.primitive p) => some (.primitiveArray p)
  | .array _ => none
  | .declared name _ =>
    match Java.Primitive.ofBoxed? name with
    | some p => some (.boxed p)
    | none => (Java.platformOp? name).map platformLeaf

/-- How a container is rebuilt. -/
def container (info : Java.Collection) (args : List JavaType) : Container :=
  ⟨info.interface, .declared info.concrete args, info.sized, info.nulls⟩

/-- The rule for a container class, which needs as many type arguments as it has type
parameters. -/
def collection (name : String) (info : Java.Collection) (args : List JavaType) :
    Except Unresolved Rule :=
  match info.kind, args with
  | .map, [key, value] => .ok (.map (container info args) key value)
  | .sequence kind, [element] => .ok (.sequence kind (container info args) element)
  | _, _ => .error (needsArguments name)

/-- The structural rule or the fallback for a class. -/
def structural (b : Codebook) (name : String) (args : List JavaType) : Except Unresolved Rule :=
  if b.catalog.isEnum name then .ok (.leaf .enum)
  else
    match Java.collection? name with
    | some info => collection name info args
    | none =>
      if name == Java.sparseArrayName then
        -- A model may declare this class with more parameters; the first one is the element.
        match args with
        | [] => .error (needsArguments name)
        | element :: _ => .ok (.sparseArray element)
      else
        match b.catalog.decl? name with
        | some d =>
          if d.dataClass then
            if b.rejected.contains name then .error (noCompanion name)
            else .ok (.leaf (.nested (b.catalog.companionName d)))
          else fallback name args
        | none => fallback name args
where
  /-- The rules that ask only what a class extends. -/
  fallback (name : String) (args : List JavaType) : Except Unresolved Rule :=
    if b.catalog.isParcelable name then .ok (.leaf .parcelable)
    else if b.catalog.isSerializable name then .ok (.leaf .serializable)
    else if name == JavaType.objectName then .ok (.leaf .tagged)
    else .error (noCodec (.declared name args))

/-- The rule for a type that no adapter and no exact built-in handles. -/
def shape (b : Codebook) : JavaType → Except Unresolved Rule
  | .primitive p => .ok (.leaf (.primitive p))
  | .array component => .ok (.array component)
  | .declared name args => b.structural name args

/-- The rule that a type falls under. -/
def classify (b : Codebook) (ty : JavaType) : Except Unresolved Rule :=
  let high := (b.registry.handlerAt? ty .high).map Rule.adapter
  let other := (b.registry.handlerAt? ty .default).map Rule.adapter
  let exact := (exactLeaf? ty).map Rule.leaf
  let found := match b.tieBreak with
    | .preferAdapter => high <|> other <|> exact
    | .preferBuiltIn => high <|> exact <|> other
  match found with
  | some rule => .ok rule
  | none => b.shape ty

end Codebook

end ParcelCodec
