/-!
# Dotted names

A qualified name is a package, a dot and a simple name; both halves are found at the *last* dot,
so that `java.util.Map.Entry` is `Entry` in `java.util.Map`.
-/

namespace ParcelCodec.Text

/-- The text before and after the last dot, if there is one. -/
def splitLastDot : List Char → Option (List Char × List Char)
  | [] => none
  | c :: rest =>
    match splitLastDot rest with
    | some (before, after) => some (c :: before, after)
    | none => if c = '.' then some ([], rest) else none

/-- Splitting loses nothing but the dot. -/
theorem eq_of_splitLastDot {cs before after : List Char}
    (h : splitLastDot cs = some (before, after)) : cs = before ++ '.' :: after := by
  induction cs generalizing before after with
  | nil => simp [splitLastDot] at h
  | cons c rest ih =>
    simp only [splitLastDot] at h
    split at h
    · next b a hr => cases h; simp [ih hr]
    · split at h
      · next hc => cases h; simp [hc]
      · cases h

end ParcelCodec.Text

namespace ParcelCodec

/-- The last segment of a dotted name. -/
def simpleName (name : String) : String :=
  match Text.splitLastDot name.toList with
  | some (_, after) => .ofList after
  | none => name

/-- What stands before the last dot, if there is one. -/
def outerName? (name : String) : Option String :=
  (Text.splitLastDot name.toList).map fun p => .ofList p.1

/-- What stands before the last dot, or nothing for an unqualified name. -/
def packageOf (name : String) : String :=
  (outerName? name).getD ""

/-- A name inside a package; the empty package adds nothing. -/
def qualified (package name : String) : String :=
  if package.isEmpty then name else package ++ "." ++ name

/-- Whether a name has more than one segment. -/
def isDotted (name : String) : Bool :=
  name.toList.contains '.'

end ParcelCodec
