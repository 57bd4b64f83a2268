import ParcelCodec.Catalog
import ParcelCodec.Diagnostic

/-!
# Resolving types

Type text stands inside a declaration: its names are looked up from the declaration's package,
and the declaration's type parameters stand for their single bound.  A wildcard stands for its
upper bound.  What is left is a `JavaType`.

A type parameter may be bounded by another one, so resolving one may visit several; a parameter
that is visited twice on one path is bounded by itself.  A path visits each parameter at most
once, which bounds the search.
-/

namespace ParcelCodec

/-- Where a type is written: the catalog it sees, its package, and the type parameters around
it. -/
structure Resolver where
  catalog : Catalog
  package : String
  params : List TypeParam

namespace Resolver

/-- The surroundings of a type written inside a declaration. -/
def ofDecl (c : Catalog) (d : TypeDecl) : Resolver := ⟨c, d.package, d.typeParams⟩

/-- The syntax of a type text. -/
def parse (text : String) : Except Unresolved TypeSyntax :=
  (TypeSyntax.parse text).mapError fun e =>
    ⟨.typeSyntaxError, e.message ++ " in " ++ displayed text⟩

/-- The first type parameter of a name. -/
def param? (r : Resolver) (name : String) : Option TypeParam :=
  r.params.find? (·.name == name)

/-! ## §1. Findings. -/

def wildcardAsField : Unresolved :=
  ⟨.wildcardInFieldType, "A wildcard cannot be the type of a field"⟩

def lowerBounded (lower : TypeSyntax) : Unresolved :=
  ⟨.wildcardLowerBound,
    "Lower-bounded wildcard \"? super " ++ lower.describe ++ "\" is not supported"⟩

def variableWithArguments (name : String) : Unresolved :=
  ⟨.typeSyntaxError, "Type variable " ++ name ++ " cannot take type arguments"⟩

def unknownName (name : String) : Unresolved :=
  ⟨.unknownTypeVariable, "Unknown type or type variable " ++ name⟩

def unknownVariable (name : String) : Unresolved :=
  ⟨.unknownTypeVariable, "Unknown type variable " ++ name⟩

def boundedByItself (name : String) : Unresolved :=
  ⟨.fieldTypeIsRecursive, "Type variable " ++ name ++ " is bounded by itself"⟩

def intersectionBound (name : String) : Unresolved :=
  ⟨.fieldTypeIsIntersectionType, "Type variable " ++ name ++ " has an intersection bound"⟩

def wrongArity (name : String) (arity found : Nat) : Unresolved :=
  ⟨.rawTypeError,
    if found = 0 then
      "Raw type " ++ name ++ " is missing its " ++ toString arity ++ " type argument(s)"
    else
      name ++ " expects " ++ toString arity ++ " type argument(s), found " ++ toString found⟩

/-! ## §2. Names. -/

/-- The qualified name of a written name with a number of type arguments. -/
def qualify (r : Resolver) (name : String) (arguments : Nat) : Except Unresolved String :=
  match r.catalog.qualify? name r.package with
  | none => .error (unknownName name)
  | some full =>
    match r.catalog.arity? full with
    | some arity => if arguments = arity then .ok full else .error (wrongArity full arity arguments)
    | none => .ok full

/-! ## §3. Types. -/

mutual

/-- The type that a syntax stands for, where `lookUp` resolves type variables. -/
def resolveWith (r : Resolver) (lookUp : String → Except Unresolved JavaType) :
    TypeSyntax → Except Unresolved JavaType
  | .primitive p => .ok (.primitive p)
  | .array component => (resolveWith r lookUp component).map .array
  | .wildcard _ (some lower) => .error (lowerBounded lower)
  | .wildcard (some upper) none => resolveWith r lookUp upper
  | .wildcard none none => .ok .object
  | .named name args =>
    -- A type parameter hides a class of its name.
    if (r.param? name).isSome then
      if args.isEmpty then lookUp name else .error (variableWithArguments name)
    else
      -- The number of arguments is looked at before any of them is.
      match r.qualify name args.length with
      | .error e => .error e
      | .ok full => (resolveArgs r lookUp args).map (.declared full)

/-- The types of several type arguments. -/
def resolveArgs (r : Resolver) (lookUp : String → Except Unresolved JavaType) :
    List TypeSyntax → Except Unresolved (List JavaType)
  | [] => .ok []
  | t :: rest =>
    match resolveWith r lookUp t with
    | .error e => .error e
    | .ok ty => (resolveArgs r lookUp rest).map (ty :: ·)

end

/-- The bounds of a type parameter. -/
def boundsOf (param : TypeParam) : Except Unresolved (List TypeSyntax) :=
  (param.bounds.mapM fun text =>
    (TypeSyntax.parseBounds text).mapError fun e =>
      Unresolved.mk .typeSyntaxError (e.message ++ " in bound " ++ displayed text)).map
    List.flatten

/-- The single bound of a type variable, if it has one. -/
def boundOf (r : Resolver) (name : String) : Except Unresolved (Option TypeSyntax) :=
  match r.param? name with
  | none => .error (unknownVariable name)
  | some param =>
    match boundsOf param with
    | .error e => .error e
    | .ok [] => .ok none
    | .ok [bound] => if bound.mentions name then .error (boundedByItself name) else .ok (some bound)
    | .ok _ => .error (intersectionBound name)

/-- The type of a type variable while some are being visited, with at most `unvisited` more to
visit. -/
def typeVariable (r : Resolver) :
    (unvisited : Nat) → (visiting : List String) → String → Except Unresolved JavaType
  | 0, _, name => .error (boundedByItself name)
  | unvisited + 1, visiting, name =>
    if visiting.contains name then .error (boundedByItself name)
    else
      match r.boundOf name with
      | .error e => .error e
      | .ok none => .ok .object
      | .ok (some bound) => r.resolveWith (typeVariable r unvisited (name :: visiting)) bound

/-- The type of a field, a parameter or a result; a wildcard cannot be one. -/
def resolve (r : Resolver) : TypeSyntax → Except Unresolved JavaType
  | .wildcard _ _ => .error wildcardAsField
  | syn => r.resolveWith (r.typeVariable (r.params.length + 1) []) syn

/-- The type that a text stands for. -/
def resolveText (r : Resolver) (text : String) : Except Unresolved JavaType :=
  parse text >>= r.resolve

/-- Whether a text stands for a type. -/
def resolvesTo (r : Resolver) (text : String) (ty : JavaType) : Bool :=
  match r.resolveText text with
  | .ok t => t == ty
  | .error _ => false

end Resolver

end ParcelCodec
