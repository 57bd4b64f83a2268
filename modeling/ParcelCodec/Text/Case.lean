import ParcelCodec.Text.Case.Table

/-!
# Letter case and word breaks

Case mapping of single characters, and the identifier spellings built on it: `snake_case`,
`UPPER_UNDERSCORE` and a capital first letter.  A mapping may lengthen the text (`ß` becomes
`SS`), so every mapping answers a list of characters.
-/

namespace ParcelCodec.Text

/-- The `Uppercase` property. -/
def isUppercase (c : Char) : Bool :=
  Case.uppercaseRuns.any (·.covers c.toNat)

/-- The `Lowercase` property. -/
def isLowercase (c : Char) : Bool :=
  Case.lowercaseRuns.any (·.covers c.toNat)

namespace Case

/-- The image of a character under a table of long forms and a table of shifts; a character in
neither table stands for itself. -/
def map (long : List (Nat × List Nat)) (shifts : List Shift) (c : Char) : List Char :=
  match long.find? (·.1 == c.toNat) with
  | some (_, form) => form.map Char.ofNat
  | none =>
    match shifts.find? (·.toRun.covers c.toNat) with
    | some shift => [Char.ofNat (c.toNat + shift.offset).toNat]
    | none => [c]

end Case

/-- The uppercase form of a character. -/
def upperForm (c : Char) : List Char :=
  Case.map Case.longUppers Case.upperShifts c

/-- The lowercase form of a character. -/
def lowerForm (c : Char) : List Char :=
  Case.map Case.longLowers Case.lowerShifts c

/-- A whole text in uppercase. -/
def toUpper (cs : List Char) : List Char :=
  cs.flatMap upperForm

/-- Whether a word starts at `c`: a capital after anything but a capital or an underscore, or the
last capital of an acronym, which the next small letter gives away. -/
def startsWord (before : Option Char) (c : Char) (after : Option Char) : Bool :=
  isUppercase c &&
    match before with
    | none => false
    | some p => if isUppercase p then after.any isLowercase else p != '_'

/-- The words of a text in lowercase, joined by underscores; acronyms stay together. -/
def toSnake (cs : List Char) : List Char :=
  go none cs
where
  go (before : Option Char) : List Char → List Char
    | [] => []
    | c :: rest =>
      (if startsWord before c rest.head? then ['_'] else [])
        ++ (if isUppercase c then lowerForm c else [c])
        ++ go (some c) rest

/-- The words of a text in uppercase, joined by underscores. -/
def toUpperUnderscore (cs : List Char) : List Char :=
  toUpper (toSnake cs)

/-- The text with its first character in uppercase. -/
def capitalize : List Char → List Char
  | [] => []
  | c :: rest => upperForm c ++ rest

end ParcelCodec.Text

namespace ParcelCodec

/-- `MyClassAdapter` becomes `my_class_adapter`. -/
def snakeCase (s : String) : String := .ofList (Text.toSnake s.toList)

/-- `MyClassAdapter` becomes `MY_CLASS_ADAPTER`. -/
def upperUnderscore (s : String) : String := .ofList (Text.toUpperUnderscore s.toList)

/-- `name` becomes `Name`. -/
def capitalized (s : String) : String := .ofList (Text.capitalize s.toList)

end ParcelCodec
