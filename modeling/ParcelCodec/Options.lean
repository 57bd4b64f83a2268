import ParcelCodec.Model.Json

/-!
# Options

What a compilation may be told besides the model: which fields to leave out, which fields may be
reached by reflection, who wins between an adapter and a built-in codec, how companions are named,
and how far the dependencies of adapters are followed.  The last one is no part of a document.
-/

namespace ParcelCodec

/-- Who wins when an adapter of default priority and a built-in codec handle the same type. -/
inductive TieBreak where
  | preferBuiltIn
  | preferAdapter
  deriving Repr, DecidableEq

/-- The words for the tie breaks. -/
def TieBreak.words : List (String × TieBreak) :=
  [("prefer_built_in", .preferBuiltIn), ("prefer_adapter", .preferAdapter)]

/-- The options of a compilation. -/
structure Options where
  /-- A field is left out if its modifiers contain all of one of these sets. -/
  excludeModifiers : List (List Modifier)
  /-- A field is left out if it has one of these annotations. -/
  excludeAnnotations : List String
  /-- The annotations that expose a field. -/
  exposeAnnotations : List String
  /-- A field without an exposing annotation is left out. -/
  excludeNonExposed : Bool
  /-- The annotations that allow reflection. -/
  reflectAnnotations : List String
  tieBreak : TieBreak
  /-- What the name of a companion ends in. -/
  companionSuffix : String
  /-- How much deeper the search for a codec may go than its type and the adapters account for. -/
  spareDepth : Nat
  deriving Repr, DecidableEq

namespace Options

/-- Static and transient fields are left out, and built-in codecs win.  A few adapters can count
through thousands of types before they come to an end, so there is depth to spare. -/
def default : Options where
  excludeModifiers := [[.isStatic], [.isTransient]]
  excludeAnnotations := []
  exposeAnnotations := []
  excludeNonExposed := false
  reflectAnnotations := []
  tieBreak := .preferBuiltIn
  companionSuffix := "Codec"
  spareDepth := 16384

/-- The same options with another depth to spare. -/
def sparing (o : Options) (depth : Nat) : Options := { o with spareDepth := depth }

/-- Whether a field with these modifiers and annotations is left out.  An empty set of modifiers
leaves nothing out. -/
def excludes (o : Options) (modifiers : List Modifier) (annotations : List String) : Bool :=
  o.excludeModifiers.any (fun set => !set.isEmpty && set.all modifiers.contains)
    || annotations.any o.excludeAnnotations.contains
    || (o.excludeNonExposed && !annotations.any o.exposeAnnotations.contains)

/-- Whether a field with these annotations may be reached by reflection. -/
def reflects (o : Options) (annotations : List String) : Bool :=
  annotations.any o.reflectAnnotations.contains

/-! ## JSON -/

open Json (record? field string? bool? list? word?)

/-- The options that a document describes. -/
def ofJson? (j : Json) : Option Options := do
  let fields ← record? ["exclude_modifiers", "exclude_annotations", "expose_annotations",
    "exclude_non_exposed", "reflect_annotations", "tie_break", "companion_suffix"] j
  return {
    excludeModifiers := ←
      field (list? (list? (word? Modifier.words))) default.excludeModifiers fields
        "exclude_modifiers"
    excludeAnnotations := ← field (list? string?) [] fields "exclude_annotations"
    exposeAnnotations := ← field (list? string?) [] fields "expose_annotations"
    excludeNonExposed := ← field bool? false fields "exclude_non_exposed"
    reflectAnnotations := ← field (list? string?) [] fields "reflect_annotations"
    tieBreak := ← field (word? TieBreak.words) .preferBuiltIn fields "tie_break"
    companionSuffix := ← field string? default.companionSuffix fields "companion_suffix"
    spareDepth := default.spareDepth }

/-- The options that a text describes. -/
def parse? (text : String) : Option Options := Json.parse? text >>= ofJson?

/-- The options with every field written out that a document may have. -/
def toJson (o : Options) : Json :=
  .members [("exclude_modifiers", .arr (o.excludeModifiers.map modifiersToJson)),
    ("exclude_annotations", textsToJson o.excludeAnnotations),
    ("expose_annotations", textsToJson o.exposeAnnotations),
    ("exclude_non_exposed", .bool o.excludeNonExposed),
    ("reflect_annotations", textsToJson o.reflectAnnotations),
    ("tie_break", wordToJson TieBreak.words o.tieBreak),
    ("companion_suffix", .text o.companionSuffix)]

end Options

end ParcelCodec
