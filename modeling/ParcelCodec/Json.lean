/-!
# JSON documents

The tree of a JSON document.  Numbers keep their literal, and objects keep the order and the
repetitions of their members, since a reader of records has to see both.

A string literal may be well formed and still spell no text, when its escapes form half a
surrogate pair; such a literal can be skipped but not used.
-/

namespace ParcelCodec

/-- A JSON document. -/
inductive Json where
  | null
  | bool (value : Bool)
  /-- A number, by its literal. -/
  | num (literal : String)
  /-- A string; `none` if its escapes spell no text. -/
  | str (text : Option String)
  | arr (items : List Json)
  /-- The members of an object in their order. -/
  | obj (members : List (Option String × Json))
  deriving Repr, Inhabited

namespace Json

/-- A string. -/
def text (s : String) : Json := .str (some s)

/-- An integer. -/
def int (n : Int) : Json := .num (toString n)

/-- An object whose members keep the given order. -/
def members (fields : List (String × Json)) : Json :=
  .obj (fields.map fun f => (some f.1, f.2))

/-- Members in ascending order of their names, with one more set. -/
def setMember (name : String) (value : Json) : List (String × Json) → List (String × Json)
  | [] => [(name, value)]
  | (n, v) :: rest =>
    if name = n then (name, value) :: rest
    else if name < n then (name, value) :: (n, v) :: rest
    else (n, v) :: setMember name value rest

/-- An object with its members in ascending order of their names; of members with one name the
last one stays. -/
def sorted (fields : List (String × Json)) : Json :=
  members (fields.foldl (fun acc f => setMember f.1 f.2 acc) [])

end Json

end ParcelCodec
