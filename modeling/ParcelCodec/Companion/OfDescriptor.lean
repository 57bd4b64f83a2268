import ParcelCodec.Companion.Reading
import ParcelCodec.Companion.Writing

/-!
# The companion of a data class

The companion that a descriptor describes.  Its read procedure reads the properties in order into
local variables, builds the instance, and sets what the constructor did not set; its write
procedure obtains the properties in the same order and writes them.  Composite properties go
through shared codecs.
-/

namespace ParcelCodec

open DataClass (Descriptor Property ReadAccess WriteAccess)

namespace Companion

/-- The class of class loaders. -/
def classLoaderName : String := "java.lang.ClassLoader"

/-- The statements at the start of a procedure that reads, what the rest of it refers to, and the
names that are left to it: the class loader is declared first if it is needed. -/
def opening (s : Statics) (owner : JavaType) (needsLoader : Bool) :
    List Stmt × Surroundings × NameScope :=
  if needsLoader then
    let (loader, scope) := NameScope.locals.allocate "loader"
    ([.declare loader (.named classLoaderName) (.classLoader owner)], ⟨s, some loader⟩, scope)
  else ([], ⟨s, none⟩, .locals)

/-! ## §1. Shared codecs. -/

/-- The variable that holds the value in a shared codec's write procedure. -/
def sharedValue : String := "value"

/-- The declaration of a shared codec. -/
def codecDecl (s : Statics) (owner : JavaType) (shared : SharedCodec) : CodecDecl :=
  let c := shared.codec
  let (start, around, scope) := opening s owner c.requiresClassLoader
  let draft := around.readPresent c scope
  { name := shared.name
    type := c.type
    read := ⟨none, start ++ draft.stmts ++ [.ret draft.value]⟩
    write := ⟨some sharedValue,
      s.writePresent c (.var sharedValue) (NameScope.locals.withName sharedValue)⟩ }

/-! ## §2. Reading an instance. -/

/-- Reads a property into a local variable. -/
def readProperty (around : Surroundings) (p : Property) (name : String) (scope : NameScope) :
    List Stmt :=
  Surroundings.readSlot p.codec p.nullable name <|
    if p.codec.isComposite then ⟨[], .codecRead (around.statics.codecName p.type)⟩
    else around.readPresent p.codec scope

/-- The local variables of the properties, in order, and the statements that read them. -/
def readProperties (around : Surroundings) : NameScope → List Property →
    List (Property × String) × List Stmt
  | _, [] => ([], [])
  | scope, p :: rest =>
    let (name, scope) := scope.allocate p.name
    let (names, stmts) := readProperties around scope rest
    ((p, name) :: names, readProperty around p name scope ++ stmts)

/-- The argument of the constructor for a property, if it takes one. -/
def argument? (held : Property × String) : Option (String × Expr) :=
  match held.1.write with
  | .constructor => some (held.1.name, .var held.2)
  | _ => none

/-- The statement that sets a property on the new instance, unless the constructor did. -/
def setter? (owner : JavaType) (held : Property × String) : Option Stmt :=
  let value := Expr.var held.2
  match held.1.write with
  | .constructor => none
  | .field => some (.setField NameScope.data held.1.name value)
  | .setter method => some (.callSetter NameScope.data method held.1.name value)
  | .reflect => some (.reflectSet NameScope.data owner held.1.name value)

/-- The procedure that reads an instance. -/
def readBody (s : Statics) (d : Descriptor) : List Stmt :=
  let (start, around, scope) := opening s d.type d.requiresClassLoader
  let (held, stmts) := readProperties around scope d.properties
  start ++ stmts
    ++ [.declare NameScope.data d.type (.construct d.type (held.filterMap argument?))]
    ++ held.filterMap (setter? d.type)
    ++ [.ret (.var NameScope.data)]

/-! ## §3. Writing an instance. -/

/-- The value of a property. -/
def propertyValue (owner : JavaType) (p : Property) : Expr :=
  match p.read with
  | .field => .field (.var NameScope.data) p.name
  | .getter method => .getter (.var NameScope.data) method p.name
  | .reflect => .reflect (.var NameScope.data) owner p.name p.type

/-- Writes a property that a local variable holds. -/
def writeProperty (s : Statics) (p : Property) (name : String) (scope : NameScope) : List Stmt :=
  Statics.writeSlot p.codec p.nullable (.var name) <|
    if p.codec.isComposite then [.codecWrite (s.codecName p.type) (.var name)]
    else s.writePresent p.codec (.var name) scope

/-- The procedure that writes an instance, from some property on. -/
def writeBody (s : Statics) (owner : JavaType) : NameScope → List Property → List Stmt
  | _, [] => []
  | scope, p :: rest =>
    let (name, scope) := scope.allocate p.name
    .declare name p.type (propertyValue owner p) :: writeProperty s p name scope
      ++ writeBody s owner scope rest

/-! ## §4. The companion. -/

/-- The companion that a descriptor describes.  A singleton's has nothing to read or write. -/
def ofDescriptor (d : Descriptor) : Companion :=
  let s := Statics.ofDescriptor d
  { package := d.package
    name := d.companionName
    type := d.type
    adapters := s.adapters
    codecs := s.codecs.map (codecDecl s d.type)
    read := ⟨none, if d.singleton then [.ret (.singleton d.type)] else readBody s d⟩
    write := ⟨some NameScope.data,
      if d.singleton then [] else writeBody s d.type .locals d.properties⟩
    requiresClassLoader := d.requiresClassLoader
    singleton := d.singleton }

end Companion

end ParcelCodec
