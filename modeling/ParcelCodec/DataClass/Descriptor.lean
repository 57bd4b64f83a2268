import ParcelCodec.Codec.Shelf
import ParcelCodec.DataClass.Access

/-!
# Descriptors of data classes

A descriptor says which properties a data class has, in the order in which they are written, how
each is obtained and set, and by which codec it is encoded.

Fields that the options leave out are gone before anything else is looked at.  The constructor is
the one with the most parameters among those that take only fields, by name and type, and leave
only fields that can be set otherwise.  A class whose constructors are all private can still be a
singleton.
-/

namespace ParcelCodec.DataClass

/-! ## §1. Descriptors. -/

/-- A property. -/
structure Property where
  name : String
  nullable : Bool
  read : ReadAccess
  write : WriteAccess
  codec : Codec
  deriving DecidableEq

/-- The type of a property. -/
def Property.type (p : Property) : JavaType := p.codec.type

/-- A descriptor. -/
structure Descriptor where
  package : String
  /-- The class's name inside its package, dotted for a nested class. -/
  className : String
  /-- The simple name of its companion. -/
  companionName : String
  type : JavaType
  /-- The properties that the constructor takes, in its order, and then the others in theirs. -/
  properties : List Property
  /-- The class has a single instance and nothing to write. -/
  singleton : Bool
  deriving DecidableEq

namespace Descriptor

/-- Whether reading an instance needs the class loader. -/
def requiresClassLoader (d : Descriptor) : Bool :=
  d.properties.any (·.codec.requiresClassLoader)

/-- The adapters that the properties need, each once and after what it depends on. -/
def requiredAdapters (d : Descriptor) : List AdapterInstance :=
  d.properties.foldl (fun seen p => p.codec.addAdapters seen) []

end Descriptor

/-! ## §2. Findings. -/

def noVisibleConstructor : Unresolved :=
  ⟨.noVisibleConstructor, "No non-private constructor and no static INSTANCE field"⟩

def duplicateField (name : String) : Unresolved :=
  ⟨.duplicateFieldName, "Field " ++ name ++ " is declared more than once"⟩

def unmatchedParameter (name : String) : Unresolved :=
  ⟨.unmatchedConstructorParameter,
    "Constructor parameter " ++ name ++ " has no field with the same name and type"⟩

def notWritable (name : String) : Unresolved :=
  ⟨.fieldNotWritable,
    "Field " ++ name ++ " is not set by a constructor and has no visible setter"⟩

def notReadable (name : String) : Unresolved :=
  ⟨.fieldNotReadable, "Field " ++ name ++ " is private and has no visible getter"⟩

/-- A field of a class, as an element of reports. -/
def fieldElement (d : TypeDecl) (field : String) : String := d.qualifiedName ++ "." ++ field

/-- A constructor parameter of a class, as an element of reports. -/
def parameterElement (d : TypeDecl) (param : String) : String :=
  d.qualifiedName ++ "(" ++ param ++ ")"

/-! ## §3. Fields. -/

/-- A field with its type. -/
structure TypedField where
  field : FieldDecl
  type : JavaType

/-- The fields of a class with their types, the first one of each name, and what keeps fields from
being among them. -/
def typedFields (r : Resolver) (d : TypeDecl) : (seen : List String) → List FieldDecl →
    List TypedField × List Diagnostic
  | _, [] => ([], [])
  | seen, f :: rest =>
    if seen.contains f.name then
      -- The first field of a name stays, whether or not its type makes sense.
      let (fields, more) := typedFields r d seen rest
      (fields, (duplicateField f.name).on (fieldElement d f.name) :: more)
    else
      let (fields, more) := typedFields r d (f.name :: seen) rest
      match r.resolveText f.type with
      | .ok ty => (⟨f, ty⟩ :: fields, more)
      | .error u => (fields, u.on (fieldElement d f.name) :: more)

/-! ## §4. Constructors. -/

/-- The constructors that a companion may call. -/
def visibleConstructors (d : TypeDecl) : List ConstructorDecl :=
  if d.constructors.isEmpty then [.implicit] else d.constructors.filter (!·.isPrivate)

/-- The constructors with the most parameters first, and otherwise in their order. -/
def largestFirst (cs : List ConstructorDecl) : List ConstructorDecl :=
  cs.mergeSort fun a b => decide (b.params.length ≤ a.params.length)

/-- The field that a parameter sets: it has the parameter's name and type. -/
def fieldFor? (r : Resolver) (fields : List TypedField) (p : ParamDecl) : Option TypedField :=
  match r.resolveText p.type with
  | .error _ => none
  | .ok ty => fields.find? fun f => f.field.name == p.name && f.type == ty

/-- The fields that the parameters of a constructor set, if each sets one. -/
def fieldsFor? (r : Resolver) (fields : List TypedField) (c : ConstructorDecl) :
    Option (List TypedField) :=
  c.params.mapM (fieldFor? r fields)

/-- The fields that are not among given ones. -/
def others (fields matched : List TypedField) : List TypedField :=
  fields.filter fun f => !matched.any (·.field.name == f.field.name)

/-- The fields that the best usable constructor sets. -/
def chosen? (m : Members) (fields : List TypedField) (cs : List ConstructorDecl) :
    Option (List TypedField) :=
  cs.findSome? fun c =>
    match fieldsFor? m.resolver fields c with
    | none => none
    | some matched =>
      if (others fields matched).all fun f => (m.write? f.field f.type).isSome then some matched
      else none

/-- Why not even the constructor with the most parameters is usable: its parameters that set no
field, or else the fields that nothing sets. -/
def constructorFindings (m : Members) (d : TypeDecl) (fields : List TypedField)
    (largest : ConstructorDecl) : List Diagnostic :=
  let unmatched := largest.params.filter fun p => (fieldFor? m.resolver fields p).isNone
  if unmatched.isEmpty then
    -- Every parameter sets a field, so what is left over cannot be set.
    let unset := fields.filter fun f =>
      !largest.params.any (·.name == f.field.name) && (m.write? f.field f.type).isNone
    unset.map fun f => (notWritable f.field.name).on (fieldElement d f.field.name)
  else unmatched.map fun p => (unmatchedParameter p.name).on (parameterElement d p.name)

/-! ## §5. Properties. -/

/-- The property of a field that is set in a given way. -/
def property (b : Codebook) (m : Members) (d : TypeDecl) (write : WriteAccess) (f : TypedField) :
    Except Diagnostic Property :=
  match m.read? f.field f.type with
  | none => .error ((notReadable f.field.name).on (fieldElement d f.field.name))
  | some read =>
    match Shelf.buildAlone b f.type with
    | .error o => .error (o.toUnresolved.on (fieldElement d f.field.name))
    | .ok codec =>
      .ok ⟨f.field.name, f.field.nullable && !f.type.isPrimitive, read, write, codec⟩

/-- The results that are there, and the failures of the others. -/
def gather : List (Except Diagnostic Property) → List Property × List Diagnostic
  | [] => ([], [])
  | .ok p :: rest => let (ps, ds) := gather rest; (p :: ps, ds)
  | .error e :: rest => let (ps, ds) := gather rest; (ps, e :: ds)

/-- The properties of a class whose constructor sets some of its fields. -/
def properties (b : Codebook) (m : Members) (d : TypeDecl) (fields matched : List TypedField) :
    List (Except Diagnostic Property) :=
  matched.map (property b m d .constructor)
    ++ (others fields matched).filterMap fun f =>
      (m.write? f.field f.type).map fun write => property b m d write f

/-- Whether a class has a static field for its single instance. -/
def hasInstance (r : Resolver) (d : TypeDecl) : Bool :=
  d.fields.any fun f =>
    f.name == "INSTANCE" && f.has .isStatic
      && match r.resolveText f.type with
        | .ok ty => ty.erasure == .named d.qualifiedName
        | .error _ => false

/-- The descriptor of a class, or everything that keeps it from having one. -/
def describe (b : Codebook) (o : Options) (d : TypeDecl) : Except (List Diagnostic) Descriptor :=
  let resolver := Resolver.ofDecl b.catalog d
  let members : Members := ⟨resolver, d.methods, o⟩
  let whole (properties : List Property) (singleton : Bool) : Descriptor :=
    ⟨d.package, d.name, b.catalog.companionSimpleName d, .named d.qualifiedName, properties,
      singleton⟩
  match largestFirst (visibleConstructors d) with
  | [] =>
    if hasInstance resolver d then .ok (whole [] true)
    else .error [noVisibleConstructor.on d.qualifiedName]
  | largest :: smaller =>
    -- Fields that are left out are gone before anything looks for accessors.
    let included := d.fields.filter fun f => !o.excludes f.modifiers f.annotations
    let (fields, findings) := typedFields resolver d [] included
    match chosen? members fields (largest :: smaller) with
    | none => .error (findings ++ constructorFindings members d fields largest)
    | some matched =>
      let (ps, more) := gather (properties b members d fields matched)
      if (findings ++ more).isEmpty then .ok (whole ps false) else .error (findings ++ more)

end ParcelCodec.DataClass
