import ParcelCodec.Adapter.Syntax

/-!
# The registry of adapters

Every usable adapter of a model, in the order of their registration.  An adapter that breaks a
rule is left out and each broken rule is reported; an adapter that was registered before is
registered once.

A type is handled by the first adapter whose pattern matches it, and adapters of high priority go
before the others.
-/

namespace ParcelCodec

/-- A registered adapter. -/
structure AdapterEntry where
  /-- The qualified name of the adapter. -/
  adapter : String
  /-- The identifier of its constant. -/
  ident : String
  params : List String
  handles : Pattern
  priority : Priority
  nullSafe : Bool
  singleton : Bool
  deps : List DependencyPattern
  deriving Repr

/-- Whether the adapter's own instance is used, so that no field has to hold one: it has no type
parameters and needs nothing. -/
def AdapterEntry.usesInstance (e : AdapterEntry) : Bool :=
  e.singleton && e.params.isEmpty && e.deps.isEmpty

/-- An adapter for a type. -/
structure AdapterMatch where
  entry : AdapterEntry
  bindings : Bindings

/-- The type arguments of the adapter, in the order of its type parameters. -/
def AdapterMatch.args (m : AdapterMatch) : List JavaType :=
  m.entry.params.map m.bindings.typeOf

/-- The registered adapters. -/
structure Registry where
  entries : List AdapterEntry

namespace Registry

def empty : Registry := ⟨[]⟩

/-! ## §1. Rules for a declaration. -/

/-- The broken rules about what an adapter is. -/
def shapeFindings (d : AdapterDecl) : List Unresolved :=
  (if d.kind = .classType then []
    else [⟨.adapterMustBeClass, "Adapters must be classes"⟩])
  ++ (if d.has .isAbstract then [⟨.adapterIsAbstract, "Adapters cannot be abstract"⟩] else [])
  ++ (if d.has .isPublic then [] else [⟨.adapterMustBePublic, "Adapters must be public"⟩])
  ++ (if isDotted d.name && !d.has .isStatic then
        [⟨.nestedAdapterMustBeStatic, "Nested adapters must be static"⟩] else [])

/-- The broken rules about the type that an adapter handles: all its type parameters have to stand
in it, since nothing else binds them. -/
def handledFindings (d : AdapterDecl) : Except Unresolved Pattern → List Unresolved
  | .error u => [u]
  | .ok p =>
    (d.typeParams.filter fun t => !p.mentions t.name).map fun t =>
      ⟨.adapterIncompatibleTypeParameters,
        "Type parameter " ++ t.name ++ " does not appear in the handled type " ++ d.handles⟩

/-- A finding about a constructor parameter. -/
def inConstructor (p : ParamDecl) (u : Unresolved) : Unresolved :=
  ⟨u.finding, "Constructor parameter " ++ p.name ++ ": " ++ u.message⟩

/-- What a constructor parameter asks for. -/
def dependencyOf (s : AdapterScope) (p : ParamDecl) : Except Unresolved DependencyPattern :=
  (s.dependency p.type).mapError (inConstructor p)

/-- The findings among several results. -/
def findingsOf (results : List (Except Unresolved DependencyPattern)) : List Unresolved :=
  results.filterMap fun
    | .error u => some u
    | .ok _ => none

/-! ## §2. Identifiers. -/

/-- Whether a text is a number that fits a machine word; a plus sign may stand in front. -/
def isWordNumber (cs : List Char) : Bool :=
  let digits := match cs with
    | '+' :: rest => rest
    | _ => cs
  !digits.isEmpty && digits.all Char.isDigit
    && decide (digits.foldl (fun n c => n * 10 + (c.toNat - '0'.toNat)) 0 < UInt64.size)

/-- What follows a leading text and an underscore. -/
def afterUnderscore? : (lead text : List Char) → Option (List Char)
  | [], '_' :: rest => some rest
  | c :: lead, d :: text => if c = d then afterUnderscore? lead text else none
  | _, _ => none

/-- Whether an identifier is a base or a numbered form of it. -/
def isVariantOf (base ident : String) : Bool :=
  ident == base || (afterUnderscore? base.toList ident.toList).any isWordNumber

/-- The identifier of the next adapter with this simple name. -/
def nextIdent (entries : List AdapterEntry) (simpleName : String) : String :=
  let base := upperUnderscore simpleName
  -- The number counts what is taken; whether it is free itself is not looked at.
  match entries.countP fun e => isVariantOf base e.ident with
  | 0 => base
  | taken => base ++ "_" ++ toString taken

/-! ## §3. Registration. -/

/-- The entry of a declaration, or the rules that it breaks. -/
def entry (entries : List AdapterEntry) (c : Catalog) (d : AdapterDecl) :
    Except (List Unresolved) AdapterEntry :=
  let scope := AdapterScope.ofDecl c d
  let handles := scope.handled d.handles
  let deps := d.constructor.map (dependencyOf scope)
  match shapeFindings d ++ handledFindings d handles ++ findingsOf deps, handles with
  | [], .ok pattern => .ok {
      adapter := d.qualifiedName
      ident := nextIdent entries d.simpleName
      params := scope.params
      handles := pattern
      priority := d.priority
      nullSafe := d.nullSafe
      singleton := d.singleton
      deps := deps.filterMap Except.toOption }
  | findings, _ => .error findings

/-- The registry with one more declaration, or the rules that it breaks. -/
def register (r : Registry) (c : Catalog) (d : AdapterDecl) :
    Except (List Diagnostic) Registry :=
  -- A second declaration of a registered adapter is not even checked.
  if r.entries.any (·.adapter == d.qualifiedName) then .ok r
  else
    match entry r.entries c d with
    | .ok e => .ok ⟨r.entries ++ [e]⟩
    | .error findings => .error (findings.map (·.on d.qualifiedName))

/-- The registry with several more declarations, and every broken rule. -/
def registerAll (c : Catalog) : Registry → List AdapterDecl → Registry × List Diagnostic
  | r, [] => (r, [])
  | r, d :: rest =>
    match r.register c d with
    | .ok r' => registerAll c r' rest
    | .error ds =>
      let (r', more) := registerAll c r rest
      (r', ds ++ more)

/-- The registry of the adapters of a catalog's model, and every broken rule. -/
def build (c : Catalog) : Registry × List Diagnostic :=
  registerAll c empty c.model.adapters

/-! ## §4. Lookup. -/

/-- The adapter of one priority that handles a type. -/
def handlerAt? (r : Registry) (ty : JavaType) (priority : Priority) : Option AdapterMatch :=
  r.entries.findSome? fun e =>
    if e.priority = priority then (e.handles.match? ty []).map (⟨e, ·⟩) else none

/-- The adapter that handles a type. -/
def handler? (r : Registry) (ty : JavaType) : Option AdapterMatch :=
  r.handlerAt? ty .high <|> r.handlerAt? ty .default

end Registry

end ParcelCodec
