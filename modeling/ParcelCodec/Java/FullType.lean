import ParcelCodec.Java.Type
import ParcelCodec.Java.TypeSyntax.Parser

/-!
# Types written in full

A resolved type as text, in which every name is already qualified.  It has the syntax of any
other type, but its names are taken as they are and no wildcard stands in it.
-/

namespace ParcelCodec

mutual

/-- The type that a syntax spells out, if no wildcard stands in it. -/
def TypeSyntax.full? : TypeSyntax → Option JavaType
  | .primitive p => some (.primitive p)
  | .named name args => (TypeSyntax.fullArgs? args).map (.declared name)
  | .array component => component.full?.map .array
  | .wildcard _ _ => none

/-- The types that several syntaxes spell out. -/
def TypeSyntax.fullArgs? : List TypeSyntax → Option (List JavaType)
  | [] => some []
  | t :: rest => do return (← t.full?) :: (← TypeSyntax.fullArgs? rest)

end

/-- The type that a text spells out. -/
def JavaType.ofFullText? (text : String) : Option JavaType :=
  match TypeSyntax.parse text with
  | .ok syn => syn.full?
  | .error _ => none

end ParcelCodec
