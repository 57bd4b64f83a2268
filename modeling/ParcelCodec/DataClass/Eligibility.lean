import ParcelCodec.Catalog
import ParcelCodec.Diagnostic
import ParcelCodec.Text.Blank

/-!
# Which classes may have a companion

A class that asks for a companion has to be a visible, concrete, parcelable class, and its
companion's name has to be free.  It cannot extend a companion, since companions are final.
-/

namespace ParcelCodec.DataClass

open Java (parcelableName)

/-- What speaks against the kind of a declaration. -/
def kindFindings (name : String) : DeclKind → List Unresolved
  | .classType => []
  | .annotationType => [⟨.dataClassOnAnnotationType, quoted name ++ " is an annotation type"⟩]
  | .interfaceType | .enumType => [⟨.dataClassOnNonClass, quoted name ++ " is not a class"⟩]

/-- A finding that arises under a condition. -/
def findingIf (condition : Bool) (finding : Finding) (message : String) : List Unresolved :=
  if condition then [⟨finding, message⟩] else []

/-- The names of all companions. -/
def companionNames (c : Catalog) : List String :=
  c.model.dataClasses.map c.companionName

/-- The qualified name of the class that a superclass text names, whatever type arguments it
has. -/
def superclassName (package text : String) : String :=
  let erased : String := .ofList (Text.trimBlank (text.toList.takeWhile (· != '<')))
  if isDotted erased then erased else qualified package erased

/-- What speaks against the superclass. -/
def superclassFindings (c : Catalog) (d : TypeDecl) : List Unresolved :=
  match d.superclass with
  | none => []
  | some text =>
    let parent := superclassName d.package text
    findingIf ((companionNames c).contains parent) .extendsGeneratedClass
      (quoted d.qualifiedName ++ " extends the generated class " ++ quoted parent)

/-- Everything that speaks against a companion of a class. -/
def objections (c : Catalog) (d : TypeDecl) : List Diagnostic :=
  let name := d.qualifiedName
  let companion := c.companionName d
  (kindFindings name d.kind
    ++ findingIf (d.has .isAbstract) .dataClassOnAbstractClass (quoted name ++ " is abstract")
    ++ findingIf (d.has .isPrivate) .dataClassOnPrivateClass (quoted name ++ " is private")
    ++ findingIf (d.isNested && !d.has .isStatic) .dataClassOnNonStaticInnerClass
        (quoted name ++ " is an inner class; nested data classes must be static")
    ++ findingIf (!c.isParcelable name) .dataClassNotParcelable
        (quoted name ++ " does not implement " ++ parcelableName)
    ++ findingIf (c.decl? companion).isSome .manualImplementation
        (quoted companion ++ " is already declared")
    ++ superclassFindings c d).map (·.on name)

end ParcelCodec.DataClass
