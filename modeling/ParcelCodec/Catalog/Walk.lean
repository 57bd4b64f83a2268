import ParcelCodec.Catalog

/-!
# Walks up to a supertype

The question of `Catalog.isSubtype`, asked depth first.  A walk goes up from a name to its
supertypes in their order, from each of them as far as it can before it turns to the next, and it
ends where a name settles the question.

The branches of a walk share the names that have been seen, and none of them is left again when a
branch fails.  So a walk goes on from each name once, however the supertypes run together or in
circles.  It goes to a depth, which is only ever reached along declared names.
-/

namespace ParcelCodec.Catalog

open Java (parcelableName serializableName)

/-- Visits names in turn, until a visit finds something or goes too deep. -/
def visitAny (visit : String → List String → Option (Bool × List String)) :
    List String → List String → Option (Bool × List String)
  | [], seen => some (false, seen)
  | name :: rest, seen =>
    match visit name seen with
    | some (false, seen) => visitAny visit rest seen
    | some (true, seen) => some (true, seen)
    | none => none

/-- Whether something above a name is the target, and the names that have been seen; nothing, if
the walk goes too deep. -/
def walk (c : Catalog) (target : String) :
    (depth : Nat) → String → (seen : List String) → Option (Bool × List String)
  | 0, _, _ => none
  | depth + 1, name, seen =>
    if name == target then some (true, seen)
    else if seen.contains name then some (false, seen)
    else
      -- The name counts as seen while the walk is above it.
      let seen := name :: seen
      match c.decl? name with
      | some d =>
        if d.kind == .enumType && target == serializableName then some (true, seen)
        else visitAny (walk c target depth) (c.supertypes d) seen
      | none =>
        if target == parcelableName then some (Java.platformParcelable name, seen)
        else if target == serializableName then some (Java.platformSerializable name, seen)
        else some (false, seen)

end ParcelCodec.Catalog
