import ParcelCodec.Codec.Shelf

/-!
# The bench that codecs are built on

A bench keeps what building has come to so far: the finished codecs by their types, the finished
adapters by their names and type arguments, and the types in progress.  A type in progress is one
whose codec is being built further up; coming back to it is an error, since it would go on for
ever.

A bench stays in use after a build that failed.  The type that failed is not in progress any more,
and whatever was finished on the way stays on the bench.
-/

namespace ParcelCodec

/-- What adapters are told apart by: the name and the type arguments. -/
def AdapterMatch.key (found : AdapterMatch) : String × List JavaType :=
  (found.entry.adapter, found.args)

/-- Finished codecs, finished adapters, and the types in progress with their weights, the last one
first. -/
structure Bench where
  codecs : List (JavaType × Codec)
  adapters : List ((String × List JavaType) × AdapterInstance)
  inProgress : List (Nat × JavaType)

namespace Bench

def empty : Bench := ⟨[], [], []⟩

/-- The finished codec for a type. -/
def codec? (s : Bench) (ty : JavaType) : Option Codec := s.codecs.lookup ty

/-- The finished adapter of a name with type arguments. -/
def adapter? (s : Bench) (key : String × List JavaType) : Option AdapterInstance :=
  s.adapters.lookup key

/-- The bench with one more finished codec. -/
def put (s : Bench) (ty : JavaType) (c : Codec) : Bench :=
  { s with codecs := (ty, c) :: s.codecs }

/-- The bench with one more finished adapter. -/
def putAdapter (s : Bench) (key : String × List JavaType) (it : AdapterInstance) : Bench :=
  { s with adapters := (key, it) :: s.adapters }

/-- The bench with one more type in progress. -/
def enter (s : Bench) (ty : JavaType) : Bench :=
  { s with inProgress := ty.weighed :: s.inProgress }

/-- The bench without the type that came in progress last. -/
def leave (s : Bench) : Bench := { s with inProgress := s.inProgress.tail }

variable {α : Type}

/-- A step with a type in progress, which it is not any more afterwards, whether the step succeeded
or failed. -/
def during (ty : JavaType) (step : Step Bench Obstacle α) : Step Bench Obstacle α := fun s =>
  let (outcome, s') := step (s.enter ty)
  (outcome, s'.leave)

/-- The adapter that was found for a type, from the bench or with what `part` builds for it. -/
def adapter (part : JavaType → Step Bench Obstacle Codec) (found : AdapterMatch) :
    Step Bench Obstacle AdapterInstance := do
  match (← Step.get).adapter? found.key with
  | some it => return it
  | none =>
    let deps ← Codebook.dependencies part found.bindings found.entry.deps
    let it := ⟨Codebook.useOf found, deps⟩
    Step.set ((← Step.get).putAdapter found.key it)
    return it

/-- The codec of a type under a rule, with an adapter from the bench if it is there. -/
def compose (part : JavaType → Step Bench Obstacle Codec) (ty : JavaType) :
    Rule → Step Bench Obstacle Codec
  | .adapter found => do
    let it ← adapter part found
    return .adapter ty it.use it.deps
  | rule => Codebook.compose part ty rule

/-- The codec of a type, from the bench or down to a depth. -/
def buildWithin (b : Codebook) : (depth : Nat) → JavaType → Step Bench Obstacle Codec
  | 0, ty => Step.fail (.unbounded ty)
  | depth + 1, ty => do
    match (← Step.get).codec? ty with
    | some c => return c
    | none =>
      if (← Step.get).inProgress.contains ty.weighed then
        Step.fail (.unresolved (Codebook.refersBack ty))
      else
        let c ← during ty (match b.classify ty with
          | .error u => Step.fail (.unresolved u)
          | .ok rule => compose (buildWithin b depth) ty rule)
        Step.set ((← Step.get).put ty c)
        return c

/-- The codec of a type, from the bench if it is there. -/
def build (b : Codebook) (ty : JavaType) : Step Bench Obstacle Codec :=
  buildWithin b (b.depthFor ty) ty

end Bench

end ParcelCodec
