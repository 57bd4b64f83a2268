import ParcelCodec.Adapter.Pattern
import ParcelCodec.Catalog
import ParcelCodec.Diagnostic

/-!
# What an adapter declaration says

An adapter names the type that it handles, in which its own type parameters may stand, and asks
its constructor for the adapters and class tokens that it depends on.  This module reads both off
their texts.
-/

namespace ParcelCodec

/-- What the constructor of an adapter asks for. -/
inductive DependencyPattern where
  /-- The adapter of a type. -/
  | adapter (type : Pattern)
  /-- The class token of a type. -/
  | token (type : Pattern)
  deriving Repr

/-- Where the types of an adapter are written: the catalog, the package of the adapter, and the
type parameters of the adapter. -/
structure AdapterScope where
  catalog : Catalog
  package : String
  params : List String

namespace AdapterScope

/-- The surroundings of the types of an adapter. -/
def ofDecl (c : Catalog) (d : AdapterDecl) : AdapterScope :=
  ⟨c, d.package, d.typeParams.map (·.name)⟩

/-! ## §1. Findings. -/

def wildcard : Unresolved :=
  ⟨.adapterTypeArgumentHasWildcards, "Wildcards are not allowed here"⟩

def unknownType (name : String) : Unresolved :=
  ⟨.unknownTypeVariable, "Unknown type " ++ name⟩

def rawType (name : String) : Unresolved :=
  ⟨.rawTypeError, name ++ " is used as a raw type"⟩

def wildcardHandled (text : String) : Unresolved :=
  ⟨.adapterTypeArgumentHasWildcards, "Handled type " ++ text ++ " contains a wildcard"⟩

def neitherAdapterNorClass (text : String) : Unresolved :=
  ⟨.adapterInvalidConstructor, text ++ " is neither a TypeAdapter nor a Class"⟩

def wildcardDependency (text : String) : Unresolved :=
  ⟨.constructorParameterHasWildcard, text ++ " contains a wildcard"⟩

/-- A raw type, reported where it was found. -/
def rawTypeAs (finding : Finding) (u : Unresolved) : Unresolved :=
  if u.finding = .rawTypeError then ⟨finding, u.message⟩ else u

/-! ## §2. Patterns. -/

/-- The syntax of a type text. -/
def parse (text : String) : Except Unresolved TypeSyntax :=
  (TypeSyntax.parse text).mapError fun e =>
    ⟨.typeSyntaxError, e.message ++ " in " ++ displayed text⟩

mutual

/-- The pattern that a syntax stands for. -/
def pattern (s : AdapterScope) : TypeSyntax → Except Unresolved Pattern
  | .primitive p => .ok (.primitive p)
  | .array component => (pattern s component).map .array
  | .wildcard _ _ => .error wildcard
  | .named name args =>
    if args.isEmpty && s.params.contains name then .ok (.var name)
    else
      match s.catalog.qualify? name s.package with
      | none => .error (unknownType name)
      | some full =>
        if (s.catalog.arity? full).all (· == args.length) then
          (patterns s args).map (.declared full)
        else .error (rawType full)

/-- The patterns that several syntaxes stand for. -/
def patterns (s : AdapterScope) : List TypeSyntax → Except Unresolved (List Pattern)
  | [] => .ok []
  | t :: rest =>
    match pattern s t with
    | .error e => .error e
    | .ok p => (patterns s rest).map (p :: ·)

end

/-- The pattern of the types that an adapter handles. -/
def handled (s : AdapterScope) (text : String) : Except Unresolved Pattern := do
  let syn ← parse text
  if syn.hasWildcard then .error (wildcardHandled text)
  else (s.pattern syn).mapError (rawTypeAs .adapterTypeArgumentHasRawType)

/-- What a constructor parameter of this type asks for. -/
def dependency (s : AdapterScope) (text : String) : Except Unresolved DependencyPattern := do
  match ← parse text with
  | .named name args =>
    let full := (s.catalog.qualify? name s.package).getD name
    if full != Java.typeAdapterName && full != Java.className then
      .error (neitherAdapterNorClass text)
    else
      match args with
      | [arg] =>
        if arg.hasWildcard then .error (wildcardDependency text)
        else
          let type ← (s.pattern arg).mapError (rawTypeAs .rawTypeAdapterDependencyError)
          return if full == Java.typeAdapterName then .adapter type else .token type
      | _ => .error (rawTypeAs .rawTypeAdapterDependencyError (rawType full))
  | _ => .error (neitherAdapterNorClass text)

end AdapterScope

end ParcelCodec
