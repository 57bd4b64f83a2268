import ParcelCodec.Companion.OfDescriptor

/-!
# Writing a companion on demand

A companion written in one go.  On the desk lies what it has come to so far: the adapters that can
be reached, the fields and the shared codecs.  The adapters that the class is known to need are
registered first; but whoever comes upon an adapter or a shared codec that does not lie there yet
registers it on the spot, with everything that it is given in its turn.

The name of a shared codec is known before its procedures are written, since these are what may
come upon more.
-/

namespace ParcelCodec

open DataClass (Descriptor Property)

/-- What adapters are told apart by: the name and the type arguments. -/
def AdapterUse.key (use : AdapterUse) : String × List JavaType := (use.adapter, use.args)

/-- What a companion has come to so far. -/
structure Desk where
  /-- The class that it reads and writes. -/
  owner : JavaType
  constants : NameScope
  /-- How to reach the adapters that were registered. -/
  refs : List ((String × List JavaType) × AdapterRef)
  adapters : List AdapterField
  codecs : List CodecDecl
  /-- The names of the shared codecs, also of those that are not finished. -/
  codecNames : List (JavaType × String)
  /-- The variable that holds the class loader in the procedure that is being written. -/
  loader : Option String

namespace Desk

open Surroundings (readSlot readLeaf arrayTypes containerName)
open Statics (writeSlot writeLeaf)

/-- An empty desk for a class. -/
def empty (owner : JavaType) : Desk := ⟨owner, .constants, [], [], [], [], none⟩

/-! ## §1. Registering. -/

/-- Draws a name for a constant. -/
def draw (base : String) : StateM Desk String := fun desk =>
  let (name, constants) := desk.constants.allocate base
  (name, { desk with constants })

/-- The statements at the start of a procedure that reads, and the names that are left to it. -/
def opening (scope : NameScope) (needsLoader : Bool) : StateM Desk (List Stmt × NameScope) :=
  fun desk =>
    if needsLoader then
      let (loader, scope) := scope.allocate "loader"
      (([.declare loader (.named Companion.classLoaderName) (.classLoader desk.owner)], scope),
        { desk with loader := some loader })
    else (([], scope), { desk with loader := none })

/-- Registers an adapter with what it is given, unless it has been. -/
def register (use : AdapterUse) (given : StateM Desk (List DependencyArg)) :
    StateM Desk Unit := do
  if ((← get).refs.lookup use.key).isSome then return
  if use.viaInstance then
    modify fun desk => { desk with refs := (use.key, .ownInstance use.adapter) :: desk.refs }
  else
    -- What the adapter is given draws its names before the field draws its own.
    let deps ← given
    let name ← draw use.ident
    modify fun desk =>
      { desk with
        adapters := desk.adapters ++ [⟨name, use.adapter, use.args, deps⟩]
        refs := (use.key, .field name) :: desk.refs }

/-- How to reach an adapter, which is registered if it has not been. -/
def reach (use : AdapterUse) (given : StateM Desk (List DependencyArg)) :
    StateM Desk AdapterRef := do
  match (← get).refs.lookup use.key with
  | some ref => return ref
  | none =>
    register use given
    return ((← get).refs.lookup use.key).getD (.field use.ident)

/-- The name of the shared codec for the type of a codec, which is declared with its two procedures
if it has not been. -/
def share (c : Codec) (read : NameScope → StateM Desk Draft)
    (write : NameScope → StateM Desk (List Stmt)) : StateM Desk String := do
  match (← get).codecNames.lookup c.type with
  | some name => return name
  | none =>
    let name ← draw c.type.constantName
    modify fun desk => { desk with codecNames := (c.type, name) :: desk.codecNames }
    -- The procedure that is being written goes on with its own class loader afterwards.
    let outer := (← get).loader
    let (start, scope) ← opening .locals c.requiresClassLoader
    let draft ← read scope
    modify fun desk => { desk with loader := none }
    let stmts ← write (NameScope.locals.withName Companion.sharedValue)
    modify fun desk =>
      { desk with
        loader := outer
        codecs := desk.codecs ++
          [⟨name, c.type, ⟨none, start ++ draft.stmts ++ [.ret draft.value]⟩,
            ⟨some Companion.sharedValue, stmts⟩⟩] }
    return name

/-! ## §2. Containers. -/

/-- Reads a container, with what reads one element. -/
def readContainer (kind : ContainerKind) (concrete : JavaType) (sized : Bool) (scope : NameScope)
    (element : (target : String) → NameScope → StateM Desk (List Stmt)) : StateM Desk Draft := do
  let (size, scope) := scope.allocate "size"
  let (target, scope) := scope.allocate (containerName kind)
  let (index, inner) := scope.allocate "i"
  let capacity := if sized then some (Expr.var size) else none
  let body ← element target inner
  return ⟨[.declare size .int (.read .int none),
      .declare target concrete (.newContainer kind concrete capacity),
      .forCount index (.var size) body],
    .var target⟩

/-- Reads an array, with what reads one element. -/
def readArray (ty : JavaType) (e : Codec) (scope : NameScope)
    (element : (item : String) → NameScope → StateM Desk (List Stmt)) : StateM Desk Draft := do
  let (length, scope) := scope.allocate "length"
  let (array, scope) := scope.allocate "array"
  let (index, inner) := scope.allocate "i"
  let (item, inner) := inner.allocate "element"
  let (component, arrayType) := arrayTypes ty e
  let body ← element item inner
  return ⟨[.declare length .int (.read .int none),
      .declare array arrayType (.newArray component (.var length)),
      .forCount index (.var length) (body ++ [.store array (.var index) (.var item)])],
    if e.isTagged then .cast ty (.var array) else .var array⟩

/-! ## §3. Codecs. -/

mutual

/-- Reads a value of a codec that is not null. -/
def read : Codec → NameScope → StateM Desk Draft
  | .leaf ty l, _ => fun desk => (⟨[], readLeaf ⟨.empty, desk.loader⟩ ty l⟩, desk)
  | .adapter _ use deps, _ => do return ⟨[], .adapterRead (← reach use (argsFor deps))⟩
  | .array ty e, scope =>
    readArray ty e scope fun item scope => do return readSlot e true item (← read e scope)
  | .sequence _ kind box e, scope =>
    readContainer (.collection (.sequence kind)) box.concrete box.sized scope fun target scope => do
      let (item, scope) := scope.allocate "element"
      let element ← read e scope
      return readSlot e box.nulls item element ++ [.add target (.var item)]
  | .map _ box k v, scope =>
    readContainer (.collection .map) box.concrete box.sized scope fun target scope => do
      let (key, scope) := scope.allocate "key"
      let keys ← read k scope
      let (value, inner) := scope.allocate "value"
      let values ← read v inner
      return readSlot k box.nulls key keys ++ readSlot v true value values
        ++ [.put target (.var key) (.var value)]
  | .sparseArray ty e, scope =>
    readContainer .sparseArray ty true scope fun target scope => do
      let (key, scope) := scope.allocate "key"
      let (value, scope) := scope.allocate "value"
      let element ← read e scope
      return [.declare key .int (.read .int none)] ++ readSlot e true value element
        ++ [.put target (.var key) (.var value)]

/-- Writes a value of a codec that is not null. -/
def write : Codec → Expr → NameScope → StateM Desk (List Stmt)
  | .leaf _ l, value, _ => return [writeLeaf value l]
  | .adapter _ use deps, value, _ => do return [.adapterWrite (← reach use (argsFor deps)) value]
  | .array _ e, value, scope => do
    let (index, scope) := scope.allocate "i"
    let (item, scope) := scope.allocate "element"
    let element ← write e (.var item) scope
    return [.write .int (.length value),
      .forCount index (.length value)
        (.declare item e.type (.index value (.var index))
          :: writeSlot e true (.var item) element)]
  | .sequence _ _ box e, value, scope => do
    let (item, scope) := scope.allocate "element"
    let element ← write e (.var item) scope
    return [.write .int (.size value),
      .forEach item e.type value (writeSlot e box.nulls (.var item) element)]
  | .map _ box k v, value, scope => do
    let (key, scope) := scope.allocate "key"
    let (item, scope) := scope.allocate "value"
    let keys ← write k (.var key) scope
    let values ← write v (.var item) scope
    return [.write .int (.size value),
      .forEntries key k.type item v.type value
        (writeSlot k box.nulls (.var key) keys ++ writeSlot v true (.var item) values)]
  | .sparseArray _ e, value, scope => do
    let (index, scope) := scope.allocate "i"
    let (item, scope) := scope.allocate "element"
    let element ← write e (.var item) scope
    return [.write .int (.size value),
      .forCount index (.size value)
        (.write .int (.keyAt value (.var index))
          :: .declare item e.type (.valueAt value (.var index))
          :: writeSlot e true (.var item) element)]

/-- What an adapter is given for its dependencies. -/
def argsFor : List Dependency → StateM Desk (List DependencyArg)
  | [] => return []
  | .token ty :: rest => do return .token ty :: (← argsFor rest)
  | .codec (.adapter _ use deps) :: rest => do
    register use (argsFor deps)
    let ref ← reach use (argsFor deps)
    return .adapter ref :: (← argsFor rest)
  | .codec c :: rest => do
    let name ← share c (read c) (write c (.var Companion.sharedValue))
    return .codec name :: (← argsFor rest)

end

/-- The name of the shared codec for a codec. -/
def sharedCodec (c : Codec) : StateM Desk String :=
  share c (read c) (write c (.var Companion.sharedValue))

/-! ## §4. Properties. -/

/-- Reads a property into a local variable. -/
def readProperty (p : Property) (name : String) (scope : NameScope) :
    StateM Desk (List Stmt) := do
  if p.codec.isComposite then
    let shared ← sharedCodec p.codec
    return readSlot p.codec p.nullable name ⟨[], .codecRead shared⟩
  else return readSlot p.codec p.nullable name (← read p.codec scope)

/-- The local variables of the properties, in order, and the statements that read them. -/
def readProperties : NameScope → List Property →
    StateM Desk (List (Property × String) × List Stmt)
  | _, [] => return ([], [])
  | scope, p :: rest => do
    let (name, scope) := scope.allocate p.name
    let stmts ← readProperty p name scope
    let (names, more) ← readProperties scope rest
    return ((p, name) :: names, stmts ++ more)

/-- The procedure that reads an instance. -/
def readBody (d : Descriptor) : StateM Desk (List Stmt) := do
  let (start, scope) ← opening .locals d.requiresClassLoader
  let (held, stmts) ← readProperties scope d.properties
  modify fun desk => { desk with loader := none }
  return start ++ stmts
    ++ [.declare NameScope.data d.type (.construct d.type (held.filterMap Companion.argument?))]
    ++ held.filterMap (Companion.setter? d.type)
    ++ [.ret (.var NameScope.data)]

/-- Writes a property that a local variable holds. -/
def writeProperty (p : Property) (name : String) (scope : NameScope) :
    StateM Desk (List Stmt) := do
  if p.codec.isComposite then
    let shared ← sharedCodec p.codec
    return writeSlot p.codec p.nullable (.var name) [.codecWrite shared (.var name)]
  else return writeSlot p.codec p.nullable (.var name) (← write p.codec (.var name) scope)

/-- The procedure that writes an instance, from some property on. -/
def writeBody (owner : JavaType) : NameScope → List Property → StateM Desk (List Stmt)
  | _, [] => return []
  | scope, p :: rest => do
    let (name, scope) := scope.allocate p.name
    let stmts ← writeProperty p name scope
    let more ← writeBody owner scope rest
    return .declare name p.type (Companion.propertyValue owner p) :: stmts ++ more

/-! ## §5. The companion. -/

/-- Registers adapters one after another. -/
def registerAll : List AdapterInstance → StateM Desk Unit
  | [] => return
  | it :: rest => do
    register it.use (argsFor it.deps)
    registerAll rest

/-- Both procedures.  A singleton's have nothing to read or write. -/
def procedures (d : Descriptor) : StateM Desk (List Stmt × List Stmt) := do
  registerAll d.requiredAdapters
  if d.singleton then return ([.ret (.singleton d.type)], [])
  let read ← readBody d
  let write ← writeBody d.type .locals d.properties
  return (read, write)

/-- The companion of a descriptor, written on an empty desk. -/
def companion (d : Descriptor) : Companion :=
  let ((read, write), desk) := procedures d (empty d.type)
  { package := d.package
    name := d.companionName
    type := d.type
    adapters := desk.adapters
    codecs := desk.codecs
    read := ⟨none, read⟩
    write := ⟨some NameScope.data, write⟩
    requiresClassLoader := d.requiresClassLoader
    singleton := d.singleton }

end Desk

end ParcelCodec
