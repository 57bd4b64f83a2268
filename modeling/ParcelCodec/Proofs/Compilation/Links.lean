import ParcelCodec.Proofs.Codec.Rule
import ParcelCodec.Proofs.Companion.Mentions
import ParcelCodec.Proofs.Compilation.Rounds

/-!
# Compiled classes refer to what is there

A class whose companion refers to another companion was described in the last round, and so was
the other class: whatever that round knew as rejected, it did not refer to.  Shared codecs and
adapters are declared by the companion itself, each before anything refers to it.

Main statements: `exists_linked` and `resolves_of_mem_mentions`.
-/

namespace ParcelCodec

open DataClass (Descriptor Property Describes)
open Codec (Part)

/-- The name of an adapter that a codebook puts into a codec says whether its own instance is
used. -/
theorem Codebook.viaInstance_of_makes {b : Codebook} (h : b.registry.Distinct) {ty ty' : JavaType}
    {use : AdapterUse} {deps : List Dependency} (made : Makes b ty (.adapter ty' use deps)) :
    use.viaInstance = b.registry.usesInstanceOf use.adapter := by
  cases made with
  | adapter rule _ => exact (Registry.usesInstanceOf_of_mem h (mem_entries_of_classify rule)).symm

namespace Compilation

variable {m : Model} {o : Options}

/-! ## §1. Nested classes. -/

/-- Data classes of one name are one class, where one of them has a companion. -/
def OneClassEach (m : Model) (o : Options) : Prop :=
  ∀ d ∈ m.dataClasses, ∀ d' ∈ m.dataClasses, d.qualifiedName = d'.qualifiedName →
    (∃ y ∈ descriptors m o, descriptorOf? m o d.qualifiedName = some y) → d = d'

/-- Types that are told apart by their names are one class for each name. -/
theorem oneClassEach_of_types (distinct : (m.types.map TypeDecl.qualifiedName).Nodup) :
    OneClassEach m o := by
  intro d hd d' hd' named _
  exact List.inj_on_of_nodup_map distinct (List.mem_of_mem_filter hd) (List.mem_of_mem_filter hd')
    named

/-- A nested class leads to the companion of its class. -/
theorem exists_linked (one : OneClassEach m o) {x : Descriptor} (hx : x ∈ descriptors m o)
    {c : Codec} (holds : x.Holds c) {ty : JavaType} {companion : String}
    (part : Part (.leaf ty (.nested companion)) c) :
    ∃ y ∈ descriptors m o, (Companion.ofDescriptor y).qualifiedName = companion
      ∧ y.typeName = Calls.nameOf ty := by
  obtain ⟨_, _, -, describes⟩ := describes_of_mem hx
  obtain ⟨p, hp, inside⟩ := holds
  have made := (describes.made p hp).part (part.trans inside)
  cases made with
  | leaf rule =>
    obtain ⟨name, args, d, type, declared, data, kept, rfl⟩ := Codebook.nested_of_classify rule
    obtain ⟨hd, rfl⟩ := Keyed.of_find? declared
    have mem : d ∈ m.dataClasses := List.mem_filter.mpr ⟨hd, data⟩
    obtain ⟨y, hy, found⟩ := exists_descriptor hx mem kept
    obtain ⟨d', hd', named, described⟩ := exists_describes found
    obtain rfl := one d mem d' hd' named.symm ⟨y, hy, found⟩
    refine ⟨y, hy, described.qualifiedName, ?_⟩
    rw [described.typeName, show ty = _ from type]
    rfl

/-! ## §2. Adapters. -/

/-- The adapters in the codecs of a class have own instances or not, by their names. -/
theorem viaInstance_of_holds {x : Descriptor} (hx : x ∈ descriptors m o) (ty : JavaType)
    (use : AdapterUse) (deps : List Dependency) (h : x.Holds (.adapter ty use deps)) :
    use.viaInstance = (workshop m o).registry.usesInstanceOf use.adapter := by
  obtain ⟨_, _, -, describes⟩ := describes_of_mem hx
  obtain ⟨p, hp, part⟩ := h
  exact Codebook.viaInstance_of_makes (b := codebook m o) (Registry.distinct_build _)
    ((describes.made p hp).part part)

/-! ## §3. A graph of classes. -/

/-- A public field that may be null. -/
def plainField (name type : String) : FieldDecl := ⟨name, type, [.isPublic], [], true, none⟩

/-- A public class in the package `app` that asks for a companion, with public fields. -/
def plainClass (name : String) (fields : List (String × String)) : TypeDecl where
  package := "app"
  name := name
  kind := .classType
  modifiers := [.isPublic, .isStatic]
  typeParams := []
  superclass := none
  interfaces := [Java.parcelableName]
  annotations := []
  dataClass := true
  fields := fields.map fun f => plainField f.1 f.2
  constructors := []
  methods := []

/-- Two classes that refer to each other, one of them by an adapter too; a class with a field of an
unknown type, and a class that refers to that one. -/
def graph : Model where
  types := [
    plainClass "Node" [("label", "String"), ("edges", "java.util.List<Edge>"),
      ("price", "java.util.Currency")],
    plainClass "Edge" [("target", "Node")],
    plainClass "Broken" [("cause", "Lost")],
    plainClass "Chain" [("link", "Broken")]]
  adapters := [{
    package := "app"
    name := "CurrencyAdapter"
    kind := .classType
    modifiers := [.isPublic]
    typeParams := []
    handles := "java.util.Currency"
    priority := .default
    nullSafe := false
    singleton := false
    constructor := [⟨"names", "TypeAdapter<java.util.List<String>>"⟩] }]

/-! ## §4. References. -/

/-- What the static declarations of a class reach, its companion declares. -/
theorem resolves_of_reaches {x : Descriptor} {ks : List Companion} {ref : AdapterRef}
    (h : (Statics.ofDescriptor x).Reaches ref) :
    ∀ y ∈ ref.mentions, (Companion.ofDescriptor x).Resolves ks y := by
  intro y hy
  cases ref with
  | ownInstance => exact absurd hy List.not_mem_nil
  | field name =>
    rw [show y = _ from List.mem_singleton.mp hy]
    exact h

/-- A shared codec is declared by the companion. -/
theorem resolves_codec {x : Descriptor} {ks : List Companion} {name : String}
    (h : ∃ shared ∈ (Statics.ofDescriptor x).codecs, shared.name = name) :
    (Companion.ofDescriptor x).Resolves ks (.codec name) := by
  obtain ⟨shared, hs, same⟩ := h
  exact ⟨_, List.mem_map_of_mem hs, same⟩

/-- What an adapter is given, its companion declares. -/
theorem resolves_of_supplied {x : Descriptor} {ks : List Companion} {arg : DependencyArg}
    (h : (Statics.ofDescriptor x).Supplied arg) :
    ∀ y ∈ arg.mentions, (Companion.ofDescriptor x).Resolves ks y := by
  cases arg with
  | adapter ref => exact resolves_of_reaches h
  | token ty => exact fun y hy => absurd hy List.not_mem_nil
  | codec name =>
    intro y hy
    rw [show y = _ from List.mem_singleton.mp hy]
    exact resolves_codec h

/-- Whatever a compiled companion refers to is there: a companion in the same compilation, or a
codec or an adapter of its own. -/
theorem resolves_of_mem_mentions (m : Model) (o : Options)
    (distinct : (m.types.map TypeDecl.qualifiedName).Nodup) {k : Companion}
    (hk : k ∈ (ofModel m o).companions) :
    ∀ x ∈ k.mentions, k.Resolves (ofModel m o).companions x := by
  rw [companions_ofModel] at hk ⊢
  obtain ⟨d, hd, rfl⟩ := List.mem_map.mp hk
  obtain ⟨_, _, -, describes⟩ := describes_of_mem hd
  have uniform := viaInstance_of_holds hd
  refine Companion.mentions_ofDescriptor (fun c holds => ⟨?_, ?_⟩) ?_ ?_
  · intro ty companion part
    obtain ⟨y, hy, name, -⟩ := exists_linked (oneClassEach_of_types distinct) hd holds part
    exact ⟨_, List.mem_map_of_mem hy, name⟩
  · intro ty use deps part
    obtain ⟨p, hp, inside⟩ := holds
    exact resolves_of_reaches
      (Statics.reaches_refTo (Statics.covers_of_holds _ uniform ⟨p, hp, part.trans inside⟩))
  · intro q hq composite
    obtain ⟨shared, hs, name, -⟩ := Statics.exists_shared describes.made hq composite
    exact resolves_codec ⟨shared, hs, name⟩
  · intro f hf arg ha
    exact resolves_of_supplied ((Statics.adapted_ofDescriptor _ uniform).supplied f hf arg ha)

/-- Besides rejected classes, a class refers to a companion, to a shared codec and to an adapter. -/
theorem resolves_of_mem_mentions_graph :
    (graph.types.map TypeDecl.qualifiedName).Nodup ∧ ∃ k ∈ (ofModel graph .default).companions,
      ∀ x ∈ [Mention.companion "app.EdgeCodec", .codec "STRING_LIST", .adapter "CURRENCY_ADAPTER"],
        x ∈ k.mentions ∧ k.Resolves (ofModel graph .default).companions x := by
  have distinct : (graph.types.map TypeDecl.qualifiedName).Nodup := by decide
  obtain ⟨k, hk, mentions⟩ : ∃ k ∈ (ofModel graph .default).companions,
      ∀ x ∈ [Mention.companion "app.EdgeCodec", .codec "STRING_LIST", .adapter "CURRENCY_ADAPTER"],
        x ∈ k.mentions := by decide +kernel
  exact ⟨distinct, k, hk, fun x hx =>
    ⟨mentions x hx, resolves_of_mem_mentions graph .default distinct hk x (mentions x hx)⟩⟩

end Compilation

end ParcelCodec
