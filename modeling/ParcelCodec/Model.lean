import ParcelCodec.Text.DottedName

/-!
# Models

What a compilation is told: the declared types and the registered adapters.  Types are written as
text and are parsed only where they are needed, so a model can hold types that make no sense.
-/

namespace ParcelCodec

/-! ## §1. Words. -/

/-- What kind of type a declaration declares. -/
inductive DeclKind where
  | classType
  | interfaceType
  | enumType
  | annotationType
  deriving Repr, DecidableEq

/-- A modifier of a declaration. -/
inductive Modifier where
  | isPublic | isProtected | isPrivate | isStatic | isAbstract | isFinal | isTransient
  | isVolatile
  deriving Repr, DecidableEq

/-- Whether an adapter goes before the built-in codecs. -/
inductive Priority where
  | default
  | high
  deriving Repr, DecidableEq

/-- The words for the kinds. -/
def DeclKind.words : List (String × DeclKind) :=
  [("class", .classType), ("interface", .interfaceType), ("enum", .enumType), ("annotation", .annotationType)]

/-- The words for the modifiers. -/
def Modifier.words : List (String × Modifier) :=
  [("public", .isPublic), ("protected", .isProtected), ("private", .isPrivate), ("static", .isStatic),
   ("abstract", .isAbstract), ("final", .isFinal), ("transient", .isTransient),
   ("volatile", .isVolatile)]

/-- The words for the priorities. -/
def Priority.words : List (String × Priority) :=
  [("default", .default), ("high", .high)]

/-! ## §2. Declarations. -/

/-- A type parameter with its bounds. -/
structure TypeParam where
  name : String
  bounds : List String
  deriving Repr, DecidableEq

/-- A field. -/
structure FieldDecl where
  name : String
  type : String
  modifiers : List Modifier
  annotations : List String
  /-- The field may be null; no matter for a primitive type. -/
  nullable : Bool
  /-- The method that reads the field, if the model names one. -/
  accessor : Option String
  deriving Repr, DecidableEq

/-- A parameter of a constructor or a method. -/
structure ParamDecl where
  name : String
  type : String
  deriving Repr, DecidableEq

/-- A constructor. -/
structure ConstructorDecl where
  modifiers : List Modifier
  params : List ParamDecl
  deriving Repr, DecidableEq

/-- A method. -/
structure MethodDecl where
  name : String
  modifiers : List Modifier
  params : List ParamDecl
  /-- The type of its result, if it has one. -/
  returns : Option String
  deriving Repr, DecidableEq

/-- A declared type. -/
structure TypeDecl where
  package : String
  /-- The name inside the package, dotted for a nested type. -/
  name : String
  kind : DeclKind
  modifiers : List Modifier
  typeParams : List TypeParam
  superclass : Option String
  interfaces : List String
  annotations : List String
  /-- The type asks for a companion. -/
  dataClass : Bool
  fields : List FieldDecl
  constructors : List ConstructorDecl
  methods : List MethodDecl
  deriving Repr, DecidableEq

/-- A registered adapter. -/
structure AdapterDecl where
  package : String
  name : String
  kind : DeclKind
  modifiers : List Modifier
  typeParams : List TypeParam
  /-- The type it handles, in which its own type parameters may stand. -/
  handles : String
  priority : Priority
  /-- It writes null by itself. -/
  nullSafe : Bool
  /-- It has a static instance. -/
  singleton : Bool
  constructor : List ParamDecl
  deriving Repr, DecidableEq

/-- The declared types and the registered adapters. -/
structure Model where
  types : List TypeDecl
  adapters : List AdapterDecl
  deriving Repr, DecidableEq

/-! ## §3. Views. -/

namespace FieldDecl

def has (f : FieldDecl) (m : Modifier) : Bool := f.modifiers.contains m

end FieldDecl

namespace ConstructorDecl

/-- The constructor of a class that declares none. -/
def implicit : ConstructorDecl := ⟨[], []⟩

def isPrivate (c : ConstructorDecl) : Bool := c.modifiers.contains .isPrivate

end ConstructorDecl

namespace MethodDecl

def has (d : MethodDecl) (m : Modifier) : Bool := d.modifiers.contains m

end MethodDecl

namespace TypeDecl

def qualifiedName (d : TypeDecl) : String := qualified d.package d.name

def simpleName (d : TypeDecl) : String := ParcelCodec.simpleName d.name

def isNested (d : TypeDecl) : Bool := isDotted d.name

def has (d : TypeDecl) (m : Modifier) : Bool := d.modifiers.contains m

/-- The enclosing type's name, for a nested type. -/
def outerName? (d : TypeDecl) : Option String := ParcelCodec.outerName? d.name

end TypeDecl

namespace AdapterDecl

def qualifiedName (d : AdapterDecl) : String := qualified d.package d.name

def simpleName (d : AdapterDecl) : String := ParcelCodec.simpleName d.name

def has (d : AdapterDecl) (m : Modifier) : Bool := d.modifiers.contains m

end AdapterDecl

namespace Model

/-- The first declaration of a qualified name. -/
def find? (m : Model) (name : String) : Option TypeDecl :=
  m.types.find? (·.qualifiedName == name)

/-- The declarations that ask for a companion, in their order. -/
def dataClasses (m : Model) : List TypeDecl := m.types.filter (·.dataClass)

end Model

end ParcelCodec
