import ParcelCodec.Java.Type

/-!
# Patterns over types

An adapter handles every type of a shape, such as every `Box<T>`.  The shape is a pattern: a type
in which variables may stand.  A variable stands for any type but a primitive one, and where it
stands twice it stands for the same type.

Matching threads the bindings from left to right, so that `Map<K, K>` takes only maps from a type
to itself.
-/

namespace ParcelCodec

/-- A type in which variables may stand. -/
inductive Pattern where
  /-- A variable. -/
  | var (name : String)
  /-- A primitive type. -/
  | primitive (p : Java.Primitive)
  /-- A class or interface with the patterns of its type arguments. -/
  | declared (name : String) (args : List Pattern)
  /-- An array. -/
  | array (component : Pattern)
  deriving Repr, Inhabited

/-- What variables stand for. -/
abbrev Bindings := List (String × JavaType)

/-- The type that a variable stands for; a free variable stands for the type of everything. -/
def Bindings.typeOf (b : Bindings) (name : String) : JavaType :=
  (b.lookup name).getD .object

namespace Pattern

mutual

/-- The bindings under which the pattern is the type, as an extension of given ones. -/
def match? : Pattern → JavaType → Bindings → Option Bindings
  | .var name, ty, b =>
    if ty.isPrimitive then none
    else
      match b.lookup name with
      | some bound => if bound = ty then some b else none
      | none => some ((name, ty) :: b)
  | .primitive p, .primitive q, b => if p = q then some b else none
  -- Different numbers of arguments are found out while the arguments are matched.
  | .declared n ps, .declared m ts, b => if n = m then matchArgs? ps ts b else none
  | .array p, .array t, b => match? p t b
  | _, _, _ => none

/-- The bindings under which several patterns are several types. -/
def matchArgs? : List Pattern → List JavaType → Bindings → Option Bindings
  | [], [], b => some b
  | p :: ps, t :: ts, b =>
    match match? p t b with
    | some b' => matchArgs? ps ts b'
    | none => none
  | _, _, _ => none

end

mutual

/-- The type that the pattern is under given bindings. -/
def substitute (b : Bindings) : Pattern → JavaType
  | .var name => b.typeOf name
  | .primitive p => .primitive p
  | .declared name args => .declared name (substituteArgs b args)
  | .array component => .array (component.substitute b)

/-- The types that several patterns are. -/
def substituteArgs (b : Bindings) : List Pattern → List JavaType
  | [] => []
  | p :: rest => p.substitute b :: substituteArgs b rest

end

mutual

/-- Whether a variable stands in the pattern. -/
def mentions (name : String) : Pattern → Bool
  | .var n => n == name
  | .primitive _ => false
  | .declared _ args => anyMentions name args
  | .array component => component.mentions name

/-- Whether a variable stands in one of several patterns. -/
def anyMentions (name : String) : List Pattern → Bool
  | [] => false
  | p :: rest => p.mentions name || anyMentions name rest

end

end Pattern

end ParcelCodec
