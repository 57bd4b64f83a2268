import ParcelCodec.Companion.OfDescriptor
import ParcelCodec.DataClass.Eligibility

/-!
# Compilations

A compilation turns every data class of a model into a companion, or reports why it cannot.

Whether a class gets a companion can hang on whether other classes do, since a field whose type is
a rejected class has no codec.  So classes are described in rounds.  In each round the classes
rejected so far are fixed, every other class is described against them, and those that fail are
rejected for the next round.  The rounds end when nothing new fails.  Each round but the last
rejects a class, so there is at most one more round than there are classes.
-/

namespace ParcelCodec

open DataClass (Descriptor describe objections)

/-- What comes of a model: a companion for every class that can have one, and the findings about
all others. -/
structure Compilation where
  companions : List Companion
  diagnostics : List Diagnostic

namespace Compilation

/-- Whether nothing was found. -/
def isOk (c : Compilation) : Bool := c.diagnostics.isEmpty

/-- The companion of a class. -/
def companion? (c : Compilation) (className : String) : Option Companion :=
  c.companions.find? (·.className == className)

/-- The companions if nothing was found, and otherwise the findings. -/
def toExcept (c : Compilation) : Except (List Diagnostic) (List Companion) :=
  if c.isOk then .ok c.companions else .error c.diagnostics

/-- The finding about options that leave out every field. -/
def nothingExposed : Diagnostic :=
  ⟨.noExposeAnnotations, "options",
    "exclude_non_exposed is set but no expose annotations are configured"⟩

/-! ## §1. Rounds. -/

/-- Rejected classes with what was found about each.  The latest entry for a class counts. -/
abbrev Rejections := List (String × List Diagnostic)

/-- Described classes.  The latest entry for a class counts. -/
abbrev Descriptions := List (String × Descriptor)

/-- What a compilation works on. -/
structure Workshop where
  catalog : Catalog
  registry : Registry
  options : Options

namespace Workshop

/-- The codecs while some classes are rejected. -/
def codebook (w : Workshop) (rejected : List String) : Codebook :=
  ⟨w.catalog, w.registry, w.options.tieBreak, rejected, w.options.spareDepth⟩

/-- The classes that cannot have a companion whatever their fields are. -/
def ineligible (w : Workshop) : List TypeDecl → Rejections
  | [] => []
  | d :: rest =>
    match objections w.catalog d with
    | [] => ineligible w rest
    | problems => ineligible w rest ++ [(d.qualifiedName, problems)]

/-- Describes classes against a codebook. -/
def describeAll (w : Workshop) (b : Codebook) : List TypeDecl → Descriptions × Rejections
  | [] => ([], [])
  | d :: rest =>
    let (described, failed) := describeAll w b rest
    match describe b w.options d with
    | .ok descriptor => (described ++ [(d.qualifiedName, descriptor)], failed)
    | .error problems => (described, failed ++ [(d.qualifiedName, problems)])

/-- Describes the classes that are not rejected. -/
def round (w : Workshop) (classes : List TypeDecl) (rejected : Rejections) :
    Descriptions × Rejections :=
  let names := rejected.map (·.1)
  w.describeAll (w.codebook names) (classes.filter fun d => !names.contains d.qualifiedName)

/-- Goes on until a round rejects nothing, for a number of rounds at most. -/
def settle (w : Workshop) (classes : List TypeDecl) : (rounds : Nat) → Rejections →
    Descriptions × Rejections
  | 0, rejected => ([], rejected)
  | rounds + 1, rejected =>
    match w.round classes rejected with
    | (described, []) => (described, rejected)
    -- Newer findings stand in front, where they are looked up first.
    | (_, failed) => settle w classes rounds (failed ++ rejected)

end Workshop

/-! ## §2. Results. -/

/-- The results of classes in their order.  What was found about a class is reported once, where
the class comes first. -/
def results (described : Descriptions) (rejected : Rejections) : (reported : List String) →
    List TypeDecl → Compilation
  | _, [] => ⟨[], []⟩
  | reported, d :: rest =>
    let name := d.qualifiedName
    match rejected.lookup name with
    -- A rejected class has no companion, however often it is declared.
    | some problems =>
      let more := results described rejected (name :: reported) rest
      if reported.contains name then more else ⟨more.companions, problems ++ more.diagnostics⟩
    | none =>
      let more := results described rejected reported rest
      match described.lookup name with
      | some descriptor => ⟨.ofDescriptor descriptor :: more.companions, more.diagnostics⟩
      | none => more

/-- Compiles a model. -/
def ofModel (m : Model) (o : Options) : Compilation :=
  if o.excludeNonExposed && o.exposeAnnotations.isEmpty then ⟨[], [nothingExposed]⟩
  else
    let catalog : Catalog := ⟨m, o.companionSuffix⟩
    let (registry, findings) := Registry.build catalog
    let workshop : Workshop := ⟨catalog, registry, o⟩
    let classes := m.dataClasses
    let (described, rejected) :=
      workshop.settle classes (classes.length + 1) (workshop.ineligible classes)
    let outcome := results described rejected [] classes
    ⟨outcome.companions, findings ++ outcome.diagnostics⟩

end Compilation

end ParcelCodec
