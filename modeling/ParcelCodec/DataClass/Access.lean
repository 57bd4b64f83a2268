import ParcelCodec.Options
import ParcelCodec.Resolution

/-!
# Access to fields

How a companion gets at a field of an instance: directly if the field is visible, through a
visible method of a fitting name and type, or by reflection if the field's annotations allow it.
-/

namespace ParcelCodec.DataClass

/-- How the value of a field is obtained from an instance. -/
inductive ReadAccess where
  | field
  | getter (method : String)
  | reflect
  deriving Repr, DecidableEq

/-- How a value gets into a field of a new instance. -/
inductive WriteAccess where
  /-- As an argument of the constructor. -/
  | constructor
  | field
  | setter (method : String)
  | reflect
  deriving Repr, DecidableEq

/-- What access to the fields of a class is decided from. -/
structure Members where
  resolver : Resolver
  methods : List MethodDecl
  options : Options

namespace Members

/-- Whether a result fits: with a type wanted, the method's result has that type; otherwise any
result does. -/
def returnsFit (m : Members) (wanted : Option JavaType) (returns : Option String) : Bool :=
  match wanted, returns with
  | none, _ => true
  | some ty, some text => m.resolver.resolvesTo text ty
  | some _, none => false

/-- Whether parameters have given types. -/
def paramsFit (m : Members) : List ParamDecl → List JavaType → Bool
  | [], [] => true
  | p :: ps, ty :: tys => m.resolver.resolvesTo p.type ty && paramsFit m ps tys
  | _, _ => false

/-- Whether there is a visible instance method of a name with parameters and a result that
fit. -/
def hasMethod (m : Members) (name : String) (params : List JavaType) (returns : Option JavaType) :
    Bool :=
  m.methods.any fun d =>
    d.name == name && !d.has .isPrivate && !d.has .isStatic
      && m.paramsFit d.params params && m.returnsFit returns d.returns

/-- Whether a method reads a value of a type. -/
def isGetter (m : Members) (ty : JavaType) (name : String) : Bool := m.hasMethod name [] (some ty)

/-- Whether a method takes a value of a type. -/
def isSetter (m : Members) (ty : JavaType) (name : String) : Bool := m.hasMethod name [ty] none

/-- The names that a getter of a field may have. -/
def getterNames (field : String) : List String :=
  field :: ["is", "has", "get"].map (· ++ capitalized field)

/-- The names that a setter of a field may have. -/
def setterNames (field : String) : List String :=
  [field, "set" ++ capitalized field]

/-- How a field of a type is read, if it can be read.  A field that names its accessor is read by
that one and by no other. -/
def read? (m : Members) (f : FieldDecl) (ty : JavaType) : Option ReadAccess :=
  match f.accessor with
  -- The named accessor is the only candidate, even for a visible field.
  | some name => if m.isGetter ty name then some (.getter name) else none
  | none =>
    if f.has .isPrivate then
      match (getterNames f.name).find? (m.isGetter ty) with
      | some name => some (.getter name)
      | none => if m.options.reflects f.annotations then some .reflect else none
    else some .field

/-- How a field of a type is set on an instance, if it can be set. -/
def write? (m : Members) (f : FieldDecl) (ty : JavaType) : Option WriteAccess :=
  if f.has .isPrivate || f.has .isFinal then
    match (setterNames f.name).find? (m.isSetter ty) with
    | some name => some (.setter name)
    | none => if m.options.reflects f.annotations then some .reflect else none
  else some .field

end Members

end ParcelCodec.DataClass
