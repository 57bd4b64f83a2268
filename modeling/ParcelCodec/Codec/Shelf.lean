import ParcelCodec.Codec.Build
import ParcelCodec.Step

/-!
# Shared codecs

A shelf holds the codecs that are finished.  Building on a shelf takes a codec from it if it is
there and puts every codec on it that it finishes, so equal types get one codec and no type is
built twice.  A shelf changes how much work is done and never what comes of it.
-/

namespace ParcelCodec

/-- Finished codecs by their types. -/
structure Shelf where
  codecs : List (JavaType × Codec)

namespace Shelf

def empty : Shelf := ⟨[]⟩

/-- The finished codec for a type. -/
def get? (s : Shelf) (ty : JavaType) : Option Codec := s.codecs.lookup ty

/-- The shelf with one more finished codec. -/
def put (s : Shelf) (ty : JavaType) (c : Codec) : Shelf := ⟨(ty, c) :: s.codecs⟩

/-- The codec of a type below others, from the shelf or down to a depth. -/
def buildBelow (b : Codebook) : (depth : Nat) → (above : List (Nat × JavaType)) →
    JavaType → Step Shelf Obstacle Codec
  | 0, _, ty => Step.fail (.unbounded ty)
  | depth + 1, above, ty => do
    match (← Step.get).get? ty with
    | some c => return c
    | none =>
      if above.contains ty.weighed then Step.fail (.unresolved (Codebook.refersBack ty))
      else
        match b.classify ty with
        | .error u => Step.fail (.unresolved u)
        | .ok rule =>
          -- A codec goes on the shelf after its parts, and only if all of them are finished.
          let c ← Codebook.compose (buildBelow b depth (ty.weighed :: above)) ty rule
          Step.set ((← Step.get).put ty c)
          return c

/-- The codec of a type, from the shelf if it is there. -/
def build (b : Codebook) (ty : JavaType) : Step Shelf Obstacle Codec :=
  buildBelow b (b.depthFor ty) [] ty

/-- The codec of a type, on a shelf of its own.  Parts that several adapters depend on are built
once, where `Codebook.build` would build them over and over. -/
def buildAlone (b : Codebook) (ty : JavaType) : Except Obstacle Codec := (build b ty empty).1

end Shelf

end ParcelCodec
