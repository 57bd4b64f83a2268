import ParcelCodec.Json
import ParcelCodec.Text.Quoted

/-!
# Printing JSON

The indented form: two spaces a level, a space behind each colon, and empty containers closed at
once.
-/

namespace ParcelCodec.Json

/-- The start of a line. -/
def margin (depth : Nat) : String := "\n" ++ .ofList (List.replicate (2 * depth) ' ')

/-- A string literal.  A string that spells no text has no literal of its own and is written
empty. -/
def literal (text : Option String) : String := quoted (text.getD "")

mutual

/-- A document that starts at some depth. -/
def prettyAt (depth : Nat) : Json → String
  | .null => "null"
  | .bool b => if b then "true" else "false"
  | .num n => n
  | .str s => literal s
  | .arr [] => "[]"
  | .arr (j :: rest) =>
    "[" ++ ",".intercalate (prettyItems (depth + 1) (j :: rest)) ++ margin depth ++ "]"
  | .obj [] => "\x7b\x7d"
  | .obj (f :: rest) =>
    "\x7b" ++ ",".intercalate (prettyMembers (depth + 1) (f :: rest)) ++ margin depth ++ "\x7d"

/-- The items of an array, a line each. -/
def prettyItems (depth : Nat) : List Json → List String
  | [] => []
  | j :: rest => (margin depth ++ j.prettyAt depth) :: prettyItems depth rest

/-- The members of an object, a line each. -/
def prettyMembers (depth : Nat) : List (Option String × Json) → List String
  | [] => []
  | (name, j) :: rest =>
    (margin depth ++ literal name ++ ": " ++ j.prettyAt depth) :: prettyMembers depth rest

end

/-- The indented form of a document. -/
def pretty (j : Json) : String := j.prettyAt 0

end ParcelCodec.Json
