import ParcelCodec.Java.Primitive
import ParcelCodec.Text.Case
import ParcelCodec.Text.DottedName

/-!
# Resolved types

A type whose names are qualified and in which no wildcard and no type variable is left.  Equal
types are treated alike everywhere, so the type of a slot decides how it is encoded.
-/

namespace ParcelCodec

/-- A resolved type. -/
inductive JavaType where
  /-- A primitive type. -/
  | primitive (p : Java.Primitive)
  /-- A class or interface with its type arguments. -/
  | declared (name : String) (args : List JavaType)
  /-- An array. -/
  | array (component : JavaType)
  deriving Repr, Inhabited

namespace JavaType

/-! ## §1. Equality is decidable. -/

mutual

/-- Equality of types. -/
def decEq : (a b : JavaType) → Decidable (a = b)
  | .primitive p, .primitive q =>
    if h : p = q then isTrue (h ▸ rfl) else isFalse fun e => h (by injection e)
  | .declared n as, .declared m bs =>
    if h : n = m then
      match decEqArgs as bs with
      | isTrue t => isTrue (h ▸ t ▸ rfl)
      | isFalse f => isFalse fun e => f (by injection e)
    else isFalse fun e => h (by injection e)
  | .array a, .array b =>
    match decEq a b with
    | isTrue t => isTrue (t ▸ rfl)
    | isFalse f => isFalse fun e => f (by injection e)
  | .primitive _, .declared _ _ => isFalse nofun
  | .primitive _, .array _ => isFalse nofun
  | .declared _ _, .primitive _ => isFalse nofun
  | .declared _ _, .array _ => isFalse nofun
  | .array _, .primitive _ => isFalse nofun
  | .array _, .declared _ _ => isFalse nofun

/-- Equality of argument lists. -/
def decEqArgs : (as bs : List JavaType) → Decidable (as = bs)
  | [], [] => isTrue rfl
  | [], _ :: _ => isFalse nofun
  | _ :: _, [] => isFalse nofun
  | a :: as, b :: bs =>
    match decEq a b with
    | isTrue t =>
      match decEqArgs as bs with
      | isTrue u => isTrue (t ▸ u ▸ rfl)
      | isFalse f => isFalse fun e => f (by injection e)
    | isFalse f => isFalse fun e => f (by injection e)

end

instance : DecidableEq JavaType := decEq

/-! ## §2. Well-known types. -/

/-- A class without type arguments. -/
def named (name : String) : JavaType := .declared name []

def objectName : String := "java.lang.Object"

def stringName : String := "java.lang.String"

/-- The type of everything. -/
def object : JavaType := named objectName

def int : JavaType := .primitive .int

/-! ## §3. Views. -/

def isPrimitive : JavaType → Bool
  | .primitive _ => true
  | _ => false

/-- The name of a declared type. -/
def name? : JavaType → Option String
  | .declared name _ => some name
  | _ => none

/-- The type arguments; only a declared type has any. -/
def args : JavaType → List JavaType
  | .declared _ args => args
  | _ => []

/-- The same type without its type arguments. -/
def erasure : JavaType → JavaType
  | .primitive p => .primitive p
  | .declared name _ => .named name
  | .array component => .array component.erasure

mutual

/-- The number of nodes of a type. -/
def weight : JavaType → Nat
  | .primitive _ => 1
  | .declared _ args => weightOfArgs args + 1
  | .array component => component.weight + 1

/-- The number of nodes of an argument list. -/
def weightOfArgs : List JavaType → Nat
  | [] => 0
  | t :: rest => t.weight + weightOfArgs rest

end

/-- A type behind its weight. -/
def weighed (t : JavaType) : Nat × JavaType := (t.weight, t)

/-- The weight adds nothing to what a type says. -/
theorem weighed_inj {a b : JavaType} : a.weighed = b.weighed ↔ a = b :=
  ⟨fun h => congrArg Prod.snd h, fun h => h ▸ rfl⟩

/-! ## §4. Texts. -/

mutual

/-- The type as it is written in source text. -/
def display : JavaType → String
  | .primitive p => p.keyword
  | .declared name args =>
    if args.isEmpty then name else name ++ "<" ++ ", ".intercalate (displayArgs args) ++ ">"
  | .array component => component.display ++ "[]"

/-- The type arguments as they are written. -/
def displayArgs : List JavaType → List String
  | [] => []
  | t :: rest => t.display :: displayArgs rest

end

mutual

/-- An identifier that describes the type from the inside out: a list of `Child` is
`CHILD_LIST`. -/
def constantName : JavaType → String
  | .primitive p => .ofList (Text.toUpper p.keyword.toList)
  | .declared name args => "_".intercalate (constantNames args ++ [upperUnderscore (simpleName name)])
  | .array component => component.constantName ++ "_ARRAY"

/-- The identifiers of the type arguments. -/
def constantNames : List JavaType → List String
  | [] => []
  | t :: rest => t.constantName :: constantNames rest

end

end JavaType

end ParcelCodec
