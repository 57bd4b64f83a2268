import ParcelCodec.Java.Platform

/-!
# Scopes of names

The names that are in use where a new one is wanted.  Allocating a name yields a scope that holds
it and leaves the old scope as it was, so the temporaries of a block never leak into what follows
the block, and blocks beside each other reuse them.

A name that is taken is tried again with the numbers 1, 2, 3 and so on.  Numbered names differ
from each other, so the search is over as soon as it has tried more names than are taken.
-/

namespace ParcelCodec

/-- The names in use. -/
structure NameScope where
  /-- What stands between a name and its number. -/
  separator : String
  taken : List String
  deriving Repr

namespace NameScope

/-- The buffer that a procedure reads. -/
def input : String := "in"

/-- The buffer that a procedure writes. -/
def output : String := "dest"

/-- The flags of a write. -/
def flags : String := "flags"

/-- The instance that is written, and the instance that is built by a read. -/
def data : String := "data"

/-- The scope of a procedure's local variables: `name`, `name1`, `name2` and so on. -/
def locals : NameScope := ⟨"", [data, flags, output, input]⟩

/-- The scope of a class's constants: `NAME`, `NAME_1`, `NAME_2` and so on. -/
def constants : NameScope := ⟨"_", ["INSTANCE", "CREATOR"]⟩

/-- Whether a name cannot be used: it is in use, or it is a reserved word. -/
def contains (s : NameScope) (name : String) : Bool :=
  Java.reservedWords.contains name || s.taken.contains name

/-- The scope in which a name is in use as well. -/
def withName (s : NameScope) (name : String) : NameScope :=
  ⟨s.separator, name :: s.taken⟩

/-- The names to try for a base, in order. -/
def candidate (s : NameScope) (base : String) : Nat → String
  | 0 => base
  | n + 1 => base ++ s.separator ++ toString (n + 1)

/-- The first candidate from the `n`-th on that can be used, among a number of candidates. -/
def firstFree (s : NameScope) (base : String) : (tries : Nat) → (n : Nat) → String
  | 0, n => s.candidate base n
  | tries + 1, n =>
    let name := s.candidate base n
    if s.contains name then firstFree s base tries (n + 1) else name

/-- A name for a base that can be used. -/
def fresh (s : NameScope) (base : String) : String :=
  s.firstFree base (Java.reservedWords.length + s.taken.length) 0

/-- A name for a base, and the scope that holds it. -/
def allocate (s : NameScope) (base : String) : String × NameScope :=
  let name := s.fresh base
  (name, s.withName name)

end NameScope

end ParcelCodec
