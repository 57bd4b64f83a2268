import ParcelCodec.Json

/-!
# Records in JSON

A record has named fields in a declared order.  It is written as an object, whose unknown members
are ignored and whose known members may not repeat, or as an array of its fields in that order,
which may end early.  A field that is left out takes its default, if it has one.

A word out of a fixed list is written as a string, or as an object with that one member and null
for its value.
-/

namespace ParcelCodec.Json

/-- The fields of a record that a document gives. -/
def record? (names : List String) : Json → Option (List (String × Json))
  | .arr items => if items.length ≤ names.length then some (names.zip items) else none
  | .obj members => do
    -- A name that spells no text is an error even if the member would be ignored.
    let named ← members.mapM fun m => m.1.map (·, m.2)
    let known := named.filter fun m => names.contains m.1
    if (known.map (·.1)).Nodup then return known else none
  | _ => none

/-- A field that must be given. -/
def required (decode : Json → Option α) (fields : List (String × Json)) (name : String) :
    Option α :=
  fields.lookup name >>= decode

/-- A field with a default. -/
def field (decode : Json → Option α) (default : α) (fields : List (String × Json))
    (name : String) : Option α :=
  match fields.lookup name with
  | none => some default
  | some j => decode j

/-- A text. -/
def string? : Json → Option String
  | .str text => text
  | _ => none

/-- A truth value. -/
def bool? : Json → Option Bool
  | .bool b => some b
  | _ => none

/-- A list of anything. -/
def list? (decode : Json → Option α) : Json → Option (List α)
  | .arr items => items.mapM decode
  | _ => none

/-- Anything or null. -/
def nullable? (decode : Json → Option α) : Json → Option (Option α)
  | .null => some none
  | j => (decode j).map some

/-- A word out of a fixed list. -/
def word? (words : List (String × α)) : Json → Option α
  | .str (some text) => words.lookup text
  | .obj [(some text, .null)] => words.lookup text
  | _ => none

end ParcelCodec.Json
