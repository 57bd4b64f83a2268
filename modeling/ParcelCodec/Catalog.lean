import ParcelCodec.Model
import ParcelCodec.Java.Platform
import ParcelCodec.Java.TypeSyntax.Parser

/-!
# The catalog of types

Every type that a compilation can see: the declarations of its model and, behind them, the
platform types.  The catalog qualifies names, counts type parameters, names companions, and
decides which type is a subtype of which.

Subtyping is reachability along declared supertypes.  The search goes outwards in rounds, and as
many rounds as there are declarations reach everything that can be reached.
-/

namespace ParcelCodec

open Java (parcelableName serializableName)

/-- The types that a compilation can see. -/
structure Catalog where
  model : Model
  /-- What the name of a companion ends in. -/
  suffix : String

namespace Catalog

/-! ## §1. Declarations and names. -/

/-- The declaration of a qualified name; the first one counts. -/
def decl? (c : Catalog) (name : String) : Option TypeDecl := c.model.find? name

/-- The qualified name that a written name stands for inside a package: a declaration of the same
package, a name that needs no import, a name that is already dotted, or the only declaration with
that simple name. -/
def qualify? (c : Catalog) (name package : String) : Option String :=
  let here := qualified package name
  -- The own package hides everything else, even the names that need no import.
  if (c.decl? here).isSome then some here
  else
    match Java.implicitName? name with
    | some full => some full
    | none =>
      if isDotted name then some name
      else
        match c.model.types.filter fun d => d.name == name || d.simpleName == name with
        | [d] => some d.qualifiedName
        | _ => none

/-- The number of type parameters, if it is known. -/
def arity? (c : Catalog) (name : String) : Option Nat :=
  match c.decl? name with
  | some d => some d.typeParams.length
  | none => Java.platformArity? name

/-- Whether a declared type is an enum. -/
def isEnum (c : Catalog) (name : String) : Bool :=
  (c.decl? name).any (·.kind == .enumType)

/-- Whether a declared type asks for a companion. -/
def isDataClass (c : Catalog) (name : String) : Bool :=
  (c.decl? name).any (·.dataClass)

/-- The simple name of a companion: nested names are joined by underscores. -/
def companionSimpleName (c : Catalog) (d : TypeDecl) : String :=
  .ofList (d.name.toList.map fun ch => if ch = '.' then '_' else ch) ++ c.suffix

/-- The qualified name of a companion; it lives in the package of its class. -/
def companionName (c : Catalog) (d : TypeDecl) : String :=
  qualified d.package (c.companionSimpleName d)

/-! ## §2. Subtypes. -/

/-- The qualified names of the direct supertypes of a declaration.  A supertype that does not
parse to a named type, or whose name is unknown, is left out. -/
def supertypes (c : Catalog) (d : TypeDecl) : List String :=
  (d.superclass.toList ++ d.interfaces).filterMap fun text =>
    match TypeSyntax.parse text with
    | .ok (.named name _) => c.qualify? name d.package
    | _ => none

/-- The direct supertypes of a name; a platform type shows none. -/
def parents (c : Catalog) (name : String) : List String :=
  match c.decl? name with
  | some d => c.supertypes d
  | none => []

/-- Whether a name is a subtype of `target` without looking at its supertypes. -/
def settles (c : Catalog) (target name : String) : Bool :=
  name == target ||
    match c.decl? name with
    | some d => d.kind == .enumType && target == serializableName
    | none =>
      if target == parcelableName then Java.platformParcelable name
      else if target == serializableName then Java.platformSerializable name
      else false

/-- The names that `rounds` rounds reach from the outermost names `frontier` of those already
reached. -/
def reach (c : Catalog) : (rounds : Nat) → (reached frontier : List String) → List String
  | 0, reached, _ => reached
  | rounds + 1, reached, frontier =>
    -- A round that finds nothing new is the last one.
    let fresh := ((frontier.flatMap c.parents).filter fun name => !reached.contains name).eraseDups
    if fresh.isEmpty then reached else reach c rounds (reached ++ fresh) fresh

/-- A name and everything above it. -/
def ancestors (c : Catalog) (name : String) : List String :=
  c.reach (c.model.types.length + 1) [name] [name]

/-- Whether a type is, extends or implements another. -/
def isSubtype (c : Catalog) (name target : String) : Bool :=
  (c.ancestors name).any (c.settles target)

def isParcelable (c : Catalog) (name : String) : Bool := c.isSubtype name parcelableName

def isSerializable (c : Catalog) (name : String) : Bool := c.isSubtype name serializableName

end Catalog

end ParcelCodec
