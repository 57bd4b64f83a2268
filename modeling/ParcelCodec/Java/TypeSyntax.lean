import ParcelCodec.Java.Primitive
import ParcelCodec.Text.Quoted

/-!
# Type syntax

A type as it is written in a model: names are not yet qualified, and wildcards and type variables
still stand in it.
-/

namespace ParcelCodec

/-- A type as it is written. -/
inductive TypeSyntax where
  /-- A primitive keyword. -/
  | primitive (p : Java.Primitive)
  /-- A name, perhaps of a type variable, with type arguments. -/
  | named (name : String) (args : List TypeSyntax)
  /-- An array. -/
  | array (component : TypeSyntax)
  /-- A question mark with at most one bound. -/
  | wildcard (upper lower : Option TypeSyntax)
  deriving Repr, Inhabited

namespace TypeSyntax

mutual

/-- Whether a wildcard stands anywhere in the type. -/
def hasWildcard : TypeSyntax → Bool
  | .primitive _ => false
  | .named _ args => anyHasWildcard args
  | .array component => component.hasWildcard
  | .wildcard _ _ => true

/-- Whether a wildcard stands in one of several types. -/
def anyHasWildcard : List TypeSyntax → Bool
  | [] => false
  | t :: rest => t.hasWildcard || anyHasWildcard rest

end

mutual

/-- Whether a name stands anywhere in the type. -/
def mentions (name : String) : TypeSyntax → Bool
  | .primitive _ => false
  | .named n args => n == name || anyMentions name args
  | .array component => component.mentions name
  | .wildcard upper lower => boundMentions name upper || boundMentions name lower

/-- Whether a name stands in one of several types. -/
def anyMentions (name : String) : List TypeSyntax → Bool
  | [] => false
  | t :: rest => t.mentions name || anyMentions name rest

/-- Whether a name stands in a bound. -/
def boundMentions (name : String) : Option TypeSyntax → Bool
  | none => false
  | some t => t.mentions name

end

/-- The capitalized keyword of a primitive type. -/
def primitiveLabel : Java.Primitive → String
  | .boolean => "Boolean"
  | .byte => "Byte"
  | .short => "Short"
  | .char => "Char"
  | .int => "Int"
  | .long => "Long"
  | .float => "Float"
  | .double => "Double"

mutual

/-- The syntax tree, spelled out node by node. -/
def describe : TypeSyntax → String
  | .primitive p => "Primitive(" ++ primitiveLabel p ++ ")"
  | .named name args =>
    "Named \x7b name: " ++ displayed name ++ ", args: [" ++ ", ".intercalate (describeAll args)
      ++ "] \x7d"
  | .array component => "Array(" ++ component.describe ++ ")"
  | .wildcard upper lower =>
    "Wildcard \x7b upper: " ++ describeBound upper ++ ", lower: " ++ describeBound lower ++ " \x7d"

/-- Several syntax trees, each spelled out. -/
def describeAll : List TypeSyntax → List String
  | [] => []
  | t :: rest => t.describe :: describeAll rest

/-- A bound, spelled out. -/
def describeBound : Option TypeSyntax → String
  | none => "None"
  | some t => "Some(" ++ t.describe ++ ")"

end

end TypeSyntax

end ParcelCodec
